import GreenCompute.Foundations.Radix
import GreenCompute.Validator.ManagedWallets

/-!
# Addresses

An SS58 address is a string of bytes in base 58, where each leading zero byte is a digit of its own.
Decoding is a change of base, so a string of digits is the encoding of exactly one string of bytes,
and `is_valid_ss58` accepts the encodings of a prefix, a key and their checksum and nothing else
(`is_valid_ss58_iff`).
-/

namespace GreenCompute

open Radix (change leading value)

/-- The digits of base 58 that a string is written with, if it is. -/
def b58Digits (address : Text) : Option (List ℕ) := address.mapM (b58Alphabet.idxOf? ·)

/-- The letter of a digit of base 58. -/
def b58Letter (d : ℕ) : Char := b58Alphabet.getD d '1'

/-- How bytes are written in base 58: a digit for each leading zero byte, and then the number that
the bytes are. -/
def b58Encode (bytes : List ℕ) : Text := (change 256 58 bytes).map b58Letter

/-- `is_valid_ss58`, for any network. -/
def isValidSs58For (network : ℕ) (blake2b : List ℕ → List ℕ) (address : Text) : Bool :=
  if address.length < 46 ∨ 48 < address.length then false
  else
    match b58Decode address with
    | none => false
    | some raw =>
      if raw.length ≠ 35 ∨ raw.head? ≠ some network then false
      else (blake2b (ss58PrefixSalt ++ raw.dropLast.dropLast)).take 2 = raw.drop 33

/-! ## Digits -/

theorem idxOf?_b58Letter {d : ℕ} (h : d < 58) : b58Alphabet.idxOf? (b58Letter d) = some d := by
  revert d
  decide +kernel

theorem b58Letter_eq_one_iff {d : ℕ} (h : d < 58) : b58Letter d = '1' ↔ d = 0 := by
  revert d
  decide +kernel

theorem b58Letter_of_idxOf? {c : Char} {d : ℕ} (h : b58Alphabet.idxOf? c = some d) :
    d < 58 ∧ b58Letter d = c := by
  obtain ⟨hlt, hget, -⟩ := List.idxOf?_eq_some_iff.mp h
  refine ⟨hlt, ?_⟩
  rw [b58Letter, List.getD_eq_getElem?_getD, List.getElem?_eq_getElem hlt, hget, Option.getD_some]

/-- Digits are read from the string that they are written as. -/
theorem b58Digits_map {ds : List ℕ} (h : ∀ d ∈ ds, d < 58) :
    b58Digits (ds.map b58Letter) = some ds := by
  induction ds with
  | nil => rfl
  | cons d ds ih =>
    have hrest : (ds.map b58Letter).mapM (b58Alphabet.idxOf? ·) = some ds :=
      ih fun d' hd' ↦ h d' (List.mem_cons_of_mem _ hd')
    rw [b58Digits, List.map_cons, List.mapM_cons, idxOf?_b58Letter (h d (List.mem_cons_self ..)),
      hrest]
    rfl

theorem b58Digits_spec {address : Text} {ds : List ℕ} (h : b58Digits address = some ds) :
    (∀ d ∈ ds, d < 58) ∧ address = ds.map b58Letter := by
  induction address generalizing ds with
  | nil =>
    obtain rfl : [] = ds := Option.some.inj h
    exact ⟨nofun, rfl⟩
  | cons c address ih =>
    rw [b58Digits, List.mapM_cons] at h
    obtain ⟨d, hd, h⟩ := Option.bind_eq_some_iff.mp h
    obtain ⟨rest, hrest, h⟩ := Option.bind_eq_some_iff.mp h
    obtain rfl : d :: rest = ds := Option.some.inj h
    obtain ⟨hlt, hletter⟩ := b58Letter_of_idxOf? hd
    obtain ⟨hall, hmap⟩ := ih hrest
    refine ⟨fun d' hd' ↦ ?_, by rw [List.map_cons, hletter, hmap]⟩
    rcases List.mem_cons.mp hd' with rfl | hd'
    · exact hlt
    · exact hall d' hd'

/-- The leading zeros of a string are its leading ones. -/
theorem leading_b58Letter {ds : List ℕ} (h : ∀ d ∈ ds, d < 58) :
    ((ds.map b58Letter).takeWhile (· = '1')).length = leading ds := by
  induction ds with
  | nil => rfl
  | cons d ds ih =>
    have hrest := ih fun d' hd' ↦ h d' (List.mem_cons_of_mem _ hd')
    have hone := b58Letter_eq_one_iff (h d (List.mem_cons_self ..))
    rw [List.map_cons]
    by_cases hzero : d = 0
    · rw [List.takeWhile_cons_of_pos (p := fun c ↦ decide (c = '1')) (decide_eq_true (hone.mpr hzero)),
        leading, List.takeWhile_cons_of_pos (p := fun d ↦ decide (d = 0)) (decide_eq_true hzero),
        List.length_cons, List.length_cons, hrest, leading]
    · have hletter : ¬decide (b58Letter d = '1') = true := fun h ↦ hzero (hone.mp (of_decide_eq_true h))
      have hdigit : ¬decide (d = 0) = true := fun h ↦ hzero (of_decide_eq_true h)
      rw [List.takeWhile_cons_of_neg (p := fun c ↦ decide (c = '1')) hletter, leading,
        List.takeWhile_cons_of_neg (p := fun d ↦ decide (d = 0)) hdigit, List.length_nil,
        List.length_nil]

theorem foldlM_b58Digits (address : Text) (n : ℕ) :
    address.foldlM (fun num c ↦ (b58Alphabet.idxOf? c).map (num * 58 + ·)) n =
      (b58Digits address).map (·.foldl (fun num d ↦ num * 58 + d) n) := by
  induction address generalizing n with
  | nil => rfl
  | cons c address ih =>
    rw [List.foldlM_cons, b58Digits, List.mapM_cons]
    cases b58Alphabet.idxOf? c with
    | none => rfl
    | some d =>
      have hrest := ih (n * 58 + d)
      rw [b58Digits] at hrest
      simp only [Option.map_some, Option.bind_eq_bind, Option.bind_some, hrest]
      cases address.mapM (b58Alphabet.idxOf? ·) <;> rfl

/-- Decoding is a change of base. -/
theorem b58Decode_eq (address : Text) :
    b58Decode address = (b58Digits address).map (change 58 256) := by
  rw [b58Decode, foldlM_b58Digits]
  cases h : b58Digits address with
  | none => rfl
  | some ds =>
    obtain ⟨hlt, rfl⟩ := b58Digits_spec h
    rw [Option.map_some, Option.map_some, Radix.foldl_eq_value]
    simp only [Option.bind_eq_bind, Option.bind_some, leading_b58Letter hlt]
    rfl

/-- Decoding inverts the encoding. -/
theorem b58Decode_b58Encode {bytes : List ℕ} (h : ∀ b ∈ bytes, b < 256) :
    b58Decode (b58Encode bytes) = some bytes := by
  have hdigits : b58Digits (b58Encode bytes) = some (change 256 58 bytes) :=
    b58Digits_map fun d hd ↦ Radix.change_lt (by decide) hd
  rw [b58Decode_eq, hdigits, Option.map_some, Radix.change_change (by decide) 58 h]

/-- A string that decodes to some bytes is their encoding. -/
theorem eq_b58Encode_of_b58Decode {address : Text} {raw : List ℕ}
    (h : b58Decode address = some raw) :
    (∀ b ∈ raw, b < 256) ∧ address = b58Encode raw := by
  rw [b58Decode_eq] at h
  obtain ⟨ds, hds, rfl⟩ := Option.map_eq_some_iff.mp h
  obtain ⟨hlt, rfl⟩ := b58Digits_spec hds
  refine ⟨fun b hb ↦ Radix.change_lt (by decide) hb, ?_⟩
  rw [b58Encode, Radix.change_change (by decide) 256 hlt]

/-! ## What is accepted -/

/-- The bytes of an address: the prefix of the network, a key of 32 bytes, and two bytes of the
checksum of these. -/
structure IsAddress (network : ℕ) (blake2b : List ℕ → List ℕ) (raw : List ℕ) : Prop where
  length : raw.length = 35
  bytes : ∀ b ∈ raw, b < 256
  head : raw.head? = some network
  checksum : raw.drop 33 = (blake2b (ss58PrefixSalt ++ raw.take 33)).take 2

/-- The public key in the bytes of an address. -/
def publicKey (raw : List ℕ) : List ℕ := (raw.drop 1).take 32

theorem dropLast_dropLast_eq {raw : List ℕ} (h : raw.length = 35) :
    raw.dropLast.dropLast = raw.take 33 := by
  rw [List.dropLast_eq_take, List.dropLast_eq_take, List.take_take, List.length_take, h]
  rfl

/-- Two addresses of one network with one key are the same bytes. -/
theorem IsAddress.eq_of_publicKey {network : ℕ} {blake2b : List ℕ → List ℕ} {raw raw' : List ℕ}
    (h : IsAddress network blake2b raw) (h' : IsAddress network blake2b raw')
    (hkey : publicKey raw = publicKey raw') : raw = raw' := by
  have hfirst : ∀ {r : List ℕ}, r.head? = some network → r.take 33 = network :: publicKey r := by
    intro r hr
    cases r with
    | nil => cases hr
    | cons b r =>
      obtain rfl : b = network := Option.some.inj hr
      rfl
  have htake : raw.take 33 = raw'.take 33 := by
    rw [hfirst h.head, hfirst h'.head, hkey]
  have hdrop : raw.drop 33 = raw'.drop 33 := by
    rw [h.checksum, h'.checksum, htake]
  rw [← List.take_append_drop 33 raw, htake, hdrop, List.take_append_drop]

theorem isValidSs58For_iff (network : ℕ) (blake2b : List ℕ → List ℕ) (address : Text) :
    isValidSs58For network blake2b address = true ↔
      (46 ≤ address.length ∧ address.length ≤ 48) ∧
        ∃ raw, b58Decode address = some raw ∧ IsAddress network blake2b raw := by
  rw [isValidSs58For]
  by_cases hlen : address.length < 46 ∨ 48 < address.length
  · rw [if_pos hlen]
    refine ⟨nofun, fun h ↦ ?_⟩
    omega
  have hbounds : 46 ≤ address.length ∧ address.length ≤ 48 := by omega
  rw [if_neg hlen]
  cases hdec : b58Decode address with
  | none => exact ⟨nofun, fun ⟨_, _, h, _⟩ ↦ nomatch h⟩
  | some raw =>
    by_cases hshape : raw.length ≠ 35 ∨ raw.head? ≠ some network
    · simp only [if_pos hshape]
      refine ⟨nofun, fun ⟨_, _, hraw, h⟩ ↦ ?_⟩
      obtain rfl := Option.some.inj hraw
      exact (hshape.elim (· h.length) (· h.head)).elim
    · simp only [if_neg hshape]
      push Not at hshape
      rw [decide_eq_true_iff, dropLast_dropLast_eq hshape.1]
      constructor
      · intro hsum
        exact ⟨hbounds, raw, rfl, hshape.1, (eq_b58Encode_of_b58Decode hdec).1, hshape.2, hsum.symm⟩
      · rintro ⟨-, _, hraw, h⟩
        obtain rfl := Option.some.inj hraw
        exact h.checksum.symm

/-- `is_valid_ss58` accepts the encodings of addresses of the network and nothing else, so two
accepted strings with one public key are one string; and decoding inverts the encoding of any
bytes. -/
theorem is_valid_ss58_iff (network : ℕ) (blake2b : List ℕ → List ℕ) :
    (∀ address, isValidSs58For network blake2b address = true ↔
      (46 ≤ address.length ∧ address.length ≤ 48) ∧
        ∃ raw, IsAddress network blake2b raw ∧ address = b58Encode raw) ∧
    (∀ address address' raw raw', isValidSs58For network blake2b address = true →
      isValidSs58For network blake2b address' = true → b58Decode address = some raw →
      b58Decode address' = some raw' → publicKey raw = publicKey raw' → address = address') ∧
    ∀ bytes, (∀ b ∈ bytes, b < 256) → b58Decode (b58Encode bytes) = some bytes := by
  refine ⟨fun address ↦ ?_, ?_, fun bytes h ↦ b58Decode_b58Encode h⟩
  · rw [isValidSs58For_iff]
    refine and_congr_right fun _ ↦ exists_congr fun raw ↦ ?_
    constructor
    · rintro ⟨hdec, h⟩
      exact ⟨h, (eq_b58Encode_of_b58Decode hdec).2⟩
    · rintro ⟨h, rfl⟩
      exact ⟨b58Decode_b58Encode h.bytes, h⟩
  · intro address address' raw raw' hvalid hvalid' hdec hdec' hkey
    obtain ⟨-, r, hr, h⟩ := (isValidSs58For_iff network blake2b address).mp hvalid
    obtain ⟨-, r', hr', h'⟩ := (isValidSs58For_iff network blake2b address').mp hvalid'
    obtain rfl := Option.some.inj (hdec.symm.trans hr)
    obtain rfl := Option.some.inj (hdec'.symm.trans hr')
    have hraw : raw = raw' := h.eq_of_publicKey h' hkey
    rw [(eq_b58Encode_of_b58Decode hdec).2, (eq_b58Encode_of_b58Decode hdec').2, hraw]

end GreenCompute
