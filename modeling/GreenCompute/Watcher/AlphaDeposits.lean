import GreenCompute.Foundations.Text
import Mathlib.Algebra.Order.BigOperators.Group.List
import Mathlib.Algebra.Order.Ring.Nat
import Mathlib.Data.List.Nodup
import Mathlib.Data.List.Range

/-!
# Alpha deposits of one block

A customer pays in alpha with `transfer_stake`, which emits a `StakeAdded` event with the amount and
a `StakeTransferred` event with the sender. The watcher pairs the two: the amount of a transfer is
that of the first `StakeAdded` of its extrinsic for the same coldkey. One extrinsic may hold several
transfers, as a batch does, and then all of them are paired with that same event.

The amounts and the subnet numbers of these events are unsigned.
-/

namespace GreenCompute

/-! ## Events -/

/-- An attribute of a decoded event: what `str` and `int` make of it. -/
structure Attribute where
  str : Text
  int : Option ℕ

/-- The attributes of a decoded event: a list, an object with its fields in order, or something
else. -/
inductive Attributes where
  | positional (values : List Attribute)
  | named (fields : List (Text × Attribute))
  | unreadable

/-- A decoded event. One that belongs to no extrinsic has no index. -/
structure ChainEvent where
  moduleId : Option Text
  eventId : Option Text
  attributes : Attributes
  extrinsicIdx : Option ℕ

namespace DepositWatcher

/-- `_event_values` -/
def eventValues (ev : ChainEvent) : Option (List Attribute) :=
  match ev.attributes with
  | .positional values => some values
  | .named fields => some (fields.map Prod.snd)
  | .unreadable => none

/-- `_is_event` -/
def isEvent (ev : ChainEvent) (module event : Text) : Bool :=
  Text.lower (ev.moduleId.getD []) = module ∧ Text.lower (ev.eventId.getD []) = event

/-- The destination and the origin of a stake transfer. -/
structure AlphaTransfer where
  dest : Text
  origin : Text

/-- `_extract_alpha_transfer` -/
def extractAlphaTransfer (ev : ChainEvent) (destAddrs : List Text) (wantNetuid : ℤ) :
    Option AlphaTransfer :=
  if isEvent ev "subtensormodule".toList "staketransferred".toList then
    match eventValues ev with
    | some (origin :: dest :: _ :: _ :: destNetuid :: _ :: _) =>
      match destNetuid.int with
      | none => none
      | some netuid =>
        if dest.str ∉ destAddrs then none
        else if 0 ≤ wantNetuid ∧ (netuid : ℤ) ≠ wantNetuid then none
        else some ⟨dest.str, origin.str⟩
    | _ => none
  else none

/-- What a `StakeAdded` event says. -/
structure StakeAdded where
  coldkey : Text
  netuid : ℕ
  alphaRao : ℕ

/-- `_extract_stake_added` -/
def extractStakeAdded (ev : ChainEvent) : Option StakeAdded :=
  if isEvent ev "subtensormodule".toList "stakeadded".toList then
    match eventValues ev with
    | some (coldkey :: _ :: _ :: alpha :: netuid :: _) =>
      match netuid.int, alpha.int with
      | some netuid, some alpha => some ⟨coldkey.str, netuid, alpha⟩
      | _, _ => none
    | _ => none
  else none

/-! ## Pairing -/

/-- The events of a block that decode to an object, with their places in the block. -/
def indexed (events : List (Option ChainEvent)) : List (ℕ × ChainEvent) :=
  events.zipIdx.filterMap fun e ↦ e.1.map (e.2, ·)

/-- `by_extrinsic`: the stake added in an extrinsic, in order. -/
def byExtrinsic (events : List (Option ChainEvent)) (xidx : Option ℕ) : List StakeAdded :=
  (indexed events).filterMap fun e ↦
    if e.2.extrinsicIdx = xidx then extractStakeAdded e.2 else none

/-- A stake transfer to one of our addresses, with its place in the block and its extrinsic. -/
structure IndexedTransfer extends AlphaTransfer where
  eventIdx : ℕ
  extrinsicIdx : Option ℕ

/-- `transfers`: the stake transfers to our addresses. -/
def transfers (events : List (Option ChainEvent)) (destAddrs : List Text) (wantNetuid : ℤ) :
    List IndexedTransfer :=
  (indexed events).filterMap fun e ↦
    if (extractStakeAdded e.2).isSome then none
    else (extractAlphaTransfer e.2 destAddrs wantNetuid).map fun moved ↦
      ⟨moved, e.1, e.2.extrinsicIdx⟩

/-- An alpha deposit. -/
structure AlphaDeposit where
  eventIdx : ℕ
  ourAddress : Text
  alphaRao : ℕ
  sender : Text
  extrinsicIdx : Option ℕ
  deriving DecidableEq

/-- The alpha of the first stake added for a coldkey on a subnet. -/
def firstAlpha (added : List StakeAdded) (coldkey : Text) (wantNetuid : ℤ) : Option ℕ :=
  (added.find? fun a ↦ a.coldkey = coldkey ∧ (a.netuid : ℤ) = wantNetuid).map StakeAdded.alphaRao

/-- `_alpha_deposits` -/
def alphaDeposits (events : List (Option ChainEvent)) (destAddrs : List Text) (wantNetuid : ℤ) :
    List AlphaDeposit :=
  (transfers events destAddrs wantNetuid).filterMap fun t ↦
    (firstAlpha (byExtrinsic events t.extrinsicIdx) t.dest wantNetuid).map fun alpha ↦
      ⟨t.eventIdx, t.dest, alpha, t.origin, t.extrinsicIdx⟩

/-! ## What arrived, and what is attributed -/

/-- The stake added for a coldkey on a subnet in an extrinsic: places and amounts. -/
def arrivals (events : List (Option ChainEvent)) (wantNetuid : ℤ) (xidx : Option ℕ)
    (coldkey : Text) : List (ℕ × ℕ) :=
  (indexed events).filterMap fun e ↦
    if e.2.extrinsicIdx = xidx then
      (extractStakeAdded e.2).bind fun a ↦
        if a.coldkey = coldkey ∧ (a.netuid : ℤ) = wantNetuid then some (e.1, a.alphaRao) else none
    else none

/-- The alpha that arrived for a coldkey on a subnet in an extrinsic. -/
def arrived (events : List (Option ChainEvent)) (wantNetuid : ℤ) (xidx : Option ℕ)
    (coldkey : Text) : ℕ :=
  ((arrivals events wantNetuid xidx coldkey).map Prod.snd).sum

/-- The alpha attributed to a coldkey in an extrinsic. -/
def attributed (events : List (Option ChainEvent)) (destAddrs : List Text) (wantNetuid : ℤ)
    (xidx : Option ℕ) (coldkey : Text) : ℕ :=
  (((alphaDeposits events destAddrs wantNetuid).filter fun d ↦
    d.extrinsicIdx = xidx ∧ d.ourAddress = coldkey).map AlphaDeposit.alphaRao).sum

/-- A deposit's amount is that of the event at a place. -/
def TakenFrom (events : List (Option ChainEvent)) (wantNetuid : ℤ) (d : AlphaDeposit) (i : ℕ) :
    Prop :=
  (arrivals events wantNetuid d.extrinsicIdx d.ourAddress).head? = some (i, d.alphaRao)

/-- No event is the source of two deposits. -/
def UsesOnce (events : List (Option ChainEvent)) (destAddrs : List Text) (wantNetuid : ℤ) : Prop :=
  ∀ d ∈ alphaDeposits events destAddrs wantNetuid, ∀ d' ∈ alphaDeposits events destAddrs wantNetuid,
    ∀ i, TakenFrom events wantNetuid d i → TakenFrom events wantNetuid d' i →
      d.eventIdx = d'.eventIdx

/-- No extrinsic in which stake is added for a coldkey holds two transfers to it. -/
def LoneTransfers (events : List (Option ChainEvent)) (destAddrs : List Text) (wantNetuid : ℤ) :
    Prop :=
  ∀ t ∈ transfers events destAddrs wantNetuid, ∀ t' ∈ transfers events destAddrs wantNetuid,
    t.extrinsicIdx = t'.extrinsicIdx → t.dest = t'.dest →
      arrivals events wantNetuid t.extrinsicIdx t.dest ≠ [] → t.eventIdx = t'.eventIdx

variable {events : List (Option ChainEvent)} {destAddrs : List Text} {wantNetuid : ℤ}

/-! ### Places in the block -/

/-- What is kept of a list keeps its keys in order. -/
theorem map_filterMap_sublist {α β γ : Type} {f : α → Option β} {key : α → γ} {key' : β → γ}
    (h : ∀ a b, f a = some b → key' b = key a) (l : List α) :
    ((l.filterMap f).map key').Sublist (l.map key) := by
  induction l with
  | nil => exact .slnil
  | cons a l ih =>
    cases hfa : f a with
    | none =>
      rw [List.filterMap_cons_none hfa]
      exact ih.cons _
    | some b =>
      rw [List.filterMap_cons_some hfa, List.map_cons, List.map_cons, h a b hfa]
      exact ih.cons_cons _

theorem nodup_indexed (events : List (Option ChainEvent)) :
    ((indexed events).map Prod.fst).Nodup := by
  have hsub : ((indexed events).map Prod.fst).Sublist (events.zipIdx.map Prod.snd) := by
    refine map_filterMap_sublist ?_ events.zipIdx
    rintro ⟨e, i⟩ ⟨j, ev⟩ h
    obtain ⟨ev', -, heq⟩ := Option.map_eq_some_iff.mp h
    exact (congrArg Prod.fst heq).symm
  rw [List.zipIdx_map_snd] at hsub
  exact List.Nodup.sublist hsub List.nodup_range'

/-- An event is known by its place. -/
theorem eq_of_mem_indexed {i : ℕ} {ev ev' : ChainEvent} (h : (i, ev) ∈ indexed events)
    (h' : (i, ev') ∈ indexed events) : ev = ev' :=
  (Prod.mk.inj (List.inj_on_of_nodup_map (nodup_indexed events) h h' rfl)).2

theorem nodup_transfers :
    ((transfers events destAddrs wantNetuid).map IndexedTransfer.eventIdx).Nodup := by
  refine (nodup_indexed events).sublist (map_filterMap_sublist ?_ _)
  rintro ⟨i, ev⟩ t h
  dsimp only at h
  split at h
  · cases h
  · obtain ⟨moved, -, rfl⟩ := Option.map_eq_some_iff.mp h
    rfl

/-- An arrival belongs to one extrinsic and one coldkey. -/
theorem mem_arrivals {xidx : Option ℕ} {coldkey : Text} {i alpha : ℕ}
    (h : (i, alpha) ∈ arrivals events wantNetuid xidx coldkey) :
    ∃ ev a, (i, ev) ∈ indexed events ∧ extractStakeAdded ev = some a ∧ ev.extrinsicIdx = xidx ∧
      a.coldkey = coldkey := by
  obtain ⟨⟨j, ev⟩, hmem, h⟩ := List.mem_filterMap.mp h
  dsimp only at h
  split at h
  · next hx =>
    obtain ⟨a, ha, h⟩ := Option.bind_eq_some_iff.mp h
    split at h
    · next hc =>
      obtain ⟨rfl, -⟩ := Prod.mk.inj (Option.some.inj h)
      exact ⟨ev, a, hmem, ha, hx, hc.1⟩
    · cases h
  · cases h

/-! ### The pairing takes the first arrival -/

theorem firstAlpha_byExtrinsic (xidx : Option ℕ) (coldkey : Text) :
    firstAlpha (byExtrinsic events xidx) coldkey wantNetuid =
      (arrivals events wantNetuid xidx coldkey).head?.map Prod.snd := by
  unfold firstAlpha byExtrinsic arrivals
  induction indexed events with
  | nil => rfl
  | cons e rest ih =>
    by_cases hx : e.2.extrinsicIdx = xidx
    · cases ha : extractStakeAdded e.2 with
      | none =>
        rw [List.filterMap_cons_none (by rw [if_pos hx, ha]),
          List.filterMap_cons_none (by rw [if_pos hx, ha]; rfl), ih]
      | some a =>
        rw [List.filterMap_cons_some (by rw [if_pos hx, ha])]
        by_cases hc : a.coldkey = coldkey ∧ (a.netuid : ℤ) = wantNetuid
        · rw [List.find?_cons_of_pos (by simpa using hc),
            List.filterMap_cons_some (b := (e.1, a.alphaRao)) (by rw [if_pos hx, ha]; exact if_pos hc)]
          rfl
        · rw [List.find?_cons_of_neg (by simpa using hc),
            List.filterMap_cons_none (by rw [if_pos hx, ha]; exact if_neg hc), ih]
    · rw [List.filterMap_cons_none (by rw [if_neg hx]), List.filterMap_cons_none (by rw [if_neg hx]),
        ih]

/-- A deposit comes from a transfer, and its amount is that of the first arrival. -/
theorem mem_alphaDeposits {d : AlphaDeposit} :
    d ∈ alphaDeposits events destAddrs wantNetuid ↔
      ∃ t ∈ transfers events destAddrs wantNetuid, ∃ i alpha,
        (arrivals events wantNetuid t.extrinsicIdx t.dest).head? = some (i, alpha) ∧
          d = ⟨t.eventIdx, t.dest, alpha, t.origin, t.extrinsicIdx⟩ := by
  simp only [alphaDeposits, List.mem_filterMap, firstAlpha_byExtrinsic, Option.map_map,
    Option.map_eq_some_iff, Prod.exists, Function.comp_apply, eq_comm (b := d)]

theorem nodup_alphaDeposits :
    ((alphaDeposits events destAddrs wantNetuid).map AlphaDeposit.eventIdx).Nodup := by
  refine nodup_transfers.sublist (map_filterMap_sublist ?_ _)
  rintro t d h
  obtain ⟨alpha, -, rfl⟩ := Option.map_eq_some_iff.mp h
  rfl

/-! ## Each arrival is used once -/

theorem usesOnce_iff :
    UsesOnce events destAddrs wantNetuid ↔ LoneTransfers events destAddrs wantNetuid := by
  constructor
  · intro honce t ht t' ht' hx hdest harrived
    obtain ⟨⟨i, alpha⟩, rest, hcons⟩ := List.exists_cons_of_ne_nil harrived
    have hhead : (arrivals events wantNetuid t.extrinsicIdx t.dest).head? = some (i, alpha) := by
      rw [hcons, List.head?_cons]
    have hhead' : (arrivals events wantNetuid t'.extrinsicIdx t'.dest).head? = some (i, alpha) := by
      rwa [← hx, ← hdest]
    exact honce _ (mem_alphaDeposits.mpr ⟨t, ht, i, alpha, hhead, rfl⟩) _
      (mem_alphaDeposits.mpr ⟨t', ht', i, alpha, hhead', rfl⟩) i hhead hhead'
  · intro hlone d hd d' hd' i htaken htaken'
    obtain ⟨t, ht, _, _, hhead, rfl⟩ := mem_alphaDeposits.mp hd
    obtain ⟨t', ht', _, _, hhead', rfl⟩ := mem_alphaDeposits.mp hd'
    -- The event the amounts are taken from names the extrinsic and the coldkey of both.
    obtain ⟨ev, a, hev, ha, hx, hc⟩ := mem_arrivals (List.mem_of_head? htaken)
    obtain ⟨ev', a', hev', ha', hx', hc'⟩ := mem_arrivals (List.mem_of_head? htaken')
    obtain rfl := eq_of_mem_indexed hev hev'
    obtain rfl := Option.some.inj (ha.symm.trans ha')
    refine hlone t ht t' ht' (hx.symm.trans hx') (hc.symm.trans hc') ?_
    exact List.ne_nil_of_mem (List.mem_of_head? hhead)

/-- At most one element of a list without repetitions meets a condition that only one meets. -/
theorem length_filter_le_one {α γ : Type} {l : List α} {key : α → γ} (hnodup : (l.map key).Nodup)
    {p : α → Bool} (h : ∀ a ∈ l, ∀ b ∈ l, p a = true → p b = true → key a = key b) :
    (l.filter p).length ≤ 1 := by
  have hfilter : ((l.filter p).map key).Nodup :=
    hnodup.sublist (List.Sublist.map key List.filter_sublist)
  match hl : l.filter p with
  | [] => exact Nat.zero_le 1
  | [_] => exact le_rfl
  | a :: b :: rest =>
    rw [hl] at hfilter
    obtain ⟨ha, hpa⟩ := List.mem_filter.mp (hl ▸ List.mem_cons_self)
    obtain ⟨hb, hpb⟩ := List.mem_filter.mp
      (hl ▸ List.mem_cons_of_mem a (List.mem_cons_self (a := b) (l := rest)))
    have hne : key a ≠ key b := by
      have := (List.nodup_cons.mp hfilter).1
      simp only [List.map_cons, List.mem_cons, not_or] at this
      exact this.1
    exact absurd (h a ha b hb hpa hpb) hne

/-- Where no arrival is shared, no more is attributed than arrived. -/
theorem attributed_le_arrived (hlone : LoneTransfers events destAddrs wantNetuid)
    (xidx : Option ℕ) (coldkey : Text) :
    attributed events destAddrs wantNetuid xidx coldkey ≤
      arrived events wantNetuid xidx coldkey := by
  have hshort : ((alphaDeposits events destAddrs wantNetuid).filter fun d ↦
      d.extrinsicIdx = xidx ∧ d.ourAddress = coldkey).length ≤ 1 := by
    refine length_filter_le_one nodup_alphaDeposits fun d hd d' hd' h h' ↦ ?_
    obtain ⟨t, ht, i, alpha, hhead, rfl⟩ := mem_alphaDeposits.mp hd
    obtain ⟨t', ht', i', alpha', hhead', rfl⟩ := mem_alphaDeposits.mp hd'
    obtain ⟨hx, hc⟩ := of_decide_eq_true h
    obtain ⟨hx', hc'⟩ := of_decide_eq_true h'
    refine hlone t ht t' ht' (hx.trans hx'.symm) (hc.trans hc'.symm) ?_
    exact List.ne_nil_of_mem (List.mem_of_head? hhead)
  unfold attributed
  rcases Nat.le_one_iff_eq_zero_or_eq_one.mp hshort with hnone | hone
  · rw [List.length_eq_zero_iff.mp hnone]
    exact Nat.zero_le _
  · obtain ⟨d, hd⟩ := List.length_eq_one_iff.mp hone
    obtain ⟨hmem, hp⟩ := List.mem_filter.mp (hd ▸ List.mem_singleton_self d)
    obtain ⟨t, -, i, alpha, hhead, heq⟩ := mem_alphaDeposits.mp hmem
    obtain ⟨hx, hc⟩ := of_decide_eq_true hp
    rw [hd, List.map_singleton, List.sum_singleton, arrived, ← hx, ← hc, heq]
    exact List.le_sum_of_mem (List.mem_map_of_mem (f := Prod.snd) (List.mem_of_head? hhead))

/-- **The watcher pays no more alpha than arrived**, and uses every `StakeAdded` event for one
deposit, in exactly the blocks in which no extrinsic that adds stake for one of our coldkeys
transfers stake to it twice. -/
theorem alpha_used_once (events : List (Option ChainEvent)) (destAddrs : List Text)
    (wantNetuid : ℤ) :
    (UsesOnce events destAddrs wantNetuid ∧
      ∀ xidx coldkey, attributed events destAddrs wantNetuid xidx coldkey ≤
        arrived events wantNetuid xidx coldkey) ↔ LoneTransfers events destAddrs wantNetuid :=
  ⟨fun h ↦ usesOnce_iff.mp h.1, fun h ↦ ⟨usesOnce_iff.mpr h, attributed_le_arrived h⟩⟩

/-! ## A batch -/

/-- An event of the staking module in extrinsic 5. -/
private def stakingEvent (event : Text) (values : List Attribute) : Option ChainEvent :=
  some ⟨some "SubtensorModule".toList, some event, .positional values, some 5⟩

/-- A number as an attribute; it is read as a number only. -/
private def amountOf (n : ℕ) : Attribute := ⟨[], some n⟩

/-- An account as an attribute. -/
private def account (name : Text) : Attribute := ⟨name, none⟩

/-- The two events of one `transfer_stake` to `5Our` on subnet 110. -/
private def transferStake (alphaRao : ℕ) : List (Option ChainEvent) :=
  [stakingEvent "StakeAdded".toList [account "5Our".toList, account "5Hot".toList, amountOf 1,
      amountOf alphaRao, amountOf 110, amountOf 0],
    stakingEvent "StakeTransferred".toList [account "5Pay".toList, account "5Our".toList,
      account "5Hot".toList, amountOf 110, amountOf 110, amountOf 1]]

example : alphaDeposits (transferStake 985006000) ["5Our".toList] 110 =
    [⟨1, "5Our".toList, 985006000, "5Pay".toList, some 5⟩] := by decide +kernel

/-- A batch of a large transfer and a small one: the large amount is attributed twice. -/
theorem batch_attributed_twice :
    arrived (transferStake 1000000000 ++ transferStake 1) 110 (some 5) "5Our".toList <
      attributed (transferStake 1000000000 ++ transferStake 1) ["5Our".toList] 110 (some 5)
        "5Our".toList := by
  decide +kernel

end DepositWatcher

end GreenCompute
