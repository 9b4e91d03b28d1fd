import GreenCompute.Foundations.CodePoints

/-!
# JSON texts

`json.loads` on a string. A text is scanned value by value; a value that is a container is scanned
with one level of nesting less to go, and an integer with too many digits is refused, so that apart
from a text that is no JSON there are two other ways to fail. A floating-point number is kept as it
is written.

The loops are counted. `loads_ne_exhausted` says that the count never runs out: every turn takes a
character of the text.
-/

namespace GreenCompute

open CodePoints

/-- A value that was loaded. -/
inductive JsonValue where
  | null
  | bool (b : Bool)
  | int (n : ℤ)
  | float (literal : CodePoints)
  | str (s : CodePoints)
  | arr (items : List JsonValue)
  | obj (items : List (CodePoints × JsonValue))

/-- How loading fails: `JSONDecodeError`, `RecursionError`, the `ValueError` of an integer that is
too long; and a loop that is not long enough. -/
inductive JsonError where
  | decode
  | recursion
  | digits
  | exhausted
  deriving DecidableEq

/-- How deep containers may nest, and how many digits an integer may have. -/
structure JsonLimits where
  depth : ℕ
  digits : ℕ

namespace JsonValue

/-- `d[key] = value` -/
def setItem (items : List (CodePoints × JsonValue)) (key : CodePoints) (value : JsonValue) :
    List (CodePoints × JsonValue) :=
  if key ∈ items.map Prod.fst then items.map fun item ↦ if item.1 = key then (key, value) else item
  else items ++ [(key, value)]

end JsonValue

namespace JsonText

/-- Drop white space. -/
def skipBlanks (s : CodePoints) : CodePoints := s.dropWhile fun c ↦ c ∈ of " \t\n\r"

/-! ## Strings -/

/-- A hexadecimal digit. -/
def hexDigit (c : ℕ) : Option ℕ :=
  if '0'.toNat ≤ c ∧ c ≤ '9'.toNat then some (c - '0'.toNat)
  else if 'a'.toNat ≤ c ∧ c ≤ 'f'.toNat then some (c - 'a'.toNat + 10)
  else if 'A'.toNat ≤ c ∧ c ≤ 'F'.toNat then some (c - 'A'.toNat + 10)
  else none

/-- Four hexadecimal digits. -/
def hexFour : CodePoints → Option (ℕ × CodePoints)
  | a :: b :: c :: d :: s => do
    let a ← hexDigit a
    let b ← hexDigit b
    let c ← hexDigit c
    let d ← hexDigit d
    pure (((a * 16 + b) * 16 + c) * 16 + d, s)
  | _ => none

/-- What a character stands for after a backslash, `u` apart. -/
def escaped (c : ℕ) : Option ℕ :=
  if c ∈ of "\"\\/" then some c
  else if c = 'b'.toNat then some 8
  else if c = 'f'.toNat then some 12
  else if c = 'n'.toNat then some 10
  else if c = 'r'.toNat then some 13
  else if c = 't'.toNat then some 9
  else none

/-- The second half of a surrogate pair. -/
def lowSurrogate : CodePoints → Option (ℕ × CodePoints)
  | a :: b :: s =>
    if a = '\\'.toNat ∧ b = 'u'.toNat then
      (hexFour s).filter fun r ↦ 0xdc00 ≤ r.1 ∧ r.1 < 0xe000
    else none
  | _ => none

/-- The next character of a string, or none at its end. -/
def scanChar : CodePoints → Except JsonError (Option ℕ × CodePoints)
  | [] => .error .decode
  | c :: s =>
    if c = '"'.toNat then .ok (none, s)
    else if c = '\\'.toNat then
      match s with
      | [] => .error .decode
      | e :: s =>
        if e = 'u'.toNat then
          match hexFour s with
          | none => .error .decode
          | some (high, s) =>
            if 0xd800 ≤ high ∧ high < 0xdc00 then
              match lowSurrogate s with
              | some (low, s) => .ok (some (0x10000 + (high - 0xd800) * 0x400 + (low - 0xdc00)), s)
              | none => .ok (some high, s)
            else .ok (some high, s)
        else
          match escaped e with
          | some c => .ok (some c, s)
          | none => .error .decode
    else if c < 32 then .error .decode
    else .ok (some c, s)

/-- `scanstring`, after the quote that begins it. -/
def scanString : ℕ → CodePoints → CodePoints → Except JsonError (CodePoints × CodePoints)
  | 0, _, _ => .error .exhausted
  | n + 1, text, s => do
    match ← scanChar s with
    | (none, s) => pure (text, s)
    | (some c, s) => scanString n (text ++ [c]) s

/-! ## Numbers -/

def isDigit (c : ℕ) : Bool := '0'.toNat ≤ c ∧ c ≤ '9'.toNat

/-- The value of decimal digits. -/
def digitsValue (digits : CodePoints) : ℕ := digits.foldl (fun n c ↦ n * 10 + (c - '0'.toNat)) 0

/-- The digits that a text begins with, and the rest. -/
def spanDigits (s : CodePoints) : CodePoints × CodePoints :=
    (s.takeWhile isDigit, s.dropWhile isDigit)

/-- The whole part of a number. -/
def scanWhole : CodePoints → Option (CodePoints × CodePoints)
  | [] => none
  | d :: s =>
    if d = '0'.toNat then some ([d], s)
    else if isDigit d then some (d :: (spanDigits s).1, (spanDigits s).2)
    else none

/-- The fraction of a number, if it has one. -/
def scanFraction (s : CodePoints) : CodePoints × CodePoints :=
  match s with
  | p :: d :: t =>
    if p = '.'.toNat ∧ isDigit d = true then (p :: d :: (spanDigits t).1, (spanDigits t).2)
    else ([], s)
  | _ => ([], s)

/-- The exponent of a number, if it has one. -/
def scanExponent (s : CodePoints) : CodePoints × CodePoints :=
  match s with
  | e :: t =>
    if e ∈ of "eE" then
      let sign := t.take (if (t.head?.any (· ∈ of "+-")) then 1 else 0)
      let digits := spanDigits (t.drop sign.length)
      if digits.1 = [] then ([], s) else (e :: sign ++ digits.1, digits.2)
    else ([], s)
  | [] => ([], s)

/-- The sign of a number, and the rest. -/
def scanSign (s : CodePoints) : CodePoints × CodePoints :=
  match s with
  | c :: t => if c = '-'.toNat then ([c], t) else ([], s)
  | [] => ([], s)

/-- `_match_number` -/
def scanNumber (limits : JsonLimits) (s : CodePoints) : Except JsonError (JsonValue × CodePoints) :=
  let (sign, s) := scanSign s
  match scanWhole s with
  | none => .error .decode
  | some (whole, s) =>
    let (fraction, s) := scanFraction s
    let (exponent, s) := scanExponent s
    if fraction = [] ∧ exponent = [] then
      if limits.digits < whole.length then .error .digits
      else .ok (.int (if sign = [] then digitsValue whole else -digitsValue whole), s)
    else .ok (.float (sign ++ whole ++ fraction ++ exponent), s)

/-! ## Values -/

/-- The words that stand for a value. -/
def constants : List (CodePoints × JsonValue) :=
  [(of "null", .null), (of "true", .bool true), (of "false", .bool false),
    (of "NaN", .float (of "NaN")), (of "Infinity", .float (of "Infinity")),
    (of "-Infinity", .float (of "-Infinity"))]

/-- A word that stands for a value, or a number. -/
def scanWord (limits : JsonLimits) (s : CodePoints) : Except JsonError (JsonValue × CodePoints) :=
  match constants.find? fun constant ↦ constant.1 <+: s with
  | some (word, value) => .ok (value, s.drop word.length)
  | none => scanNumber limits s

section

variable (scanValue : CodePoints → Except JsonError (JsonValue × CodePoints))

/-- `_parse_array`, at one of its items. -/
def scanItems : ℕ → List JsonValue → CodePoints → Except JsonError (List JsonValue × CodePoints)
  | 0, _, _ => .error .exhausted
  | n + 1, items, s => do
    let (value, s) ← scanValue s
    match skipBlanks s with
    | [] => .error .decode
    | c :: s =>
      if c = ']'.toNat then .ok (items ++ [value], s)
      else if c = ','.toNat then scanItems n (items ++ [value]) (skipBlanks s)
      else .error .decode

/-- A key of an object, and the colon after it. -/
def scanKey (n : ℕ) : CodePoints → Except JsonError (CodePoints × CodePoints)
  | [] => .error .decode
  | c :: s =>
    if c = '"'.toNat then do
      let (key, s) ← scanString n [] s
      match skipBlanks s with
      | [] => .error .decode
      | c :: s => if c = ':'.toNat then .ok (key, skipBlanks s) else .error .decode
    else .error .decode

/-- `_parse_object`, at one of its keys. -/
def scanMembers : ℕ → List (CodePoints × JsonValue) → CodePoints →
    Except JsonError (List (CodePoints × JsonValue) × CodePoints)
  | 0, _, _ => .error .exhausted
  | n + 1, items, s => do
    let (key, s) ← scanKey n s
    let (value, s) ← scanValue s
    match skipBlanks s with
    | [] => .error .decode
    | c :: s =>
      if c = '}'.toNat then .ok (JsonValue.setItem items key value, s)
      else if c = ','.toNat then
        scanMembers n (JsonValue.setItem items key value) (skipBlanks s)
      else .error .decode

/-- An array after its bracket. -/
def scanArray (n : ℕ) (s : CodePoints) : Except JsonError (JsonValue × CodePoints) :=
  match skipBlanks s with
  | [] => .error .decode
  | c :: t =>
    if c = ']'.toNat then .ok (.arr [], t)
    else do
      let (items, t) ← scanItems scanValue n [] (c :: t)
      pure (.arr items, t)

/-- An object after its brace. -/
def scanObject (n : ℕ) (s : CodePoints) : Except JsonError (JsonValue × CodePoints) :=
  match skipBlanks s with
  | [] => .error .decode
  | c :: t =>
    if c = '}'.toNat then .ok (.obj [], t)
    else do
      let (items, t) ← scanMembers scanValue n [] (c :: t)
      pure (.obj items, t)

end

/-- `scan_once` -/
def scanOnce (limits : JsonLimits) : ℕ → ℕ → CodePoints →
    Except JsonError (JsonValue × CodePoints)
  | 0, _, _ => .error .exhausted
  | _, _, [] => .error .decode
  | n + 1, depth, c :: s =>
    if c = '"'.toNat then do
      let (text, s) ← scanString n [] s
      pure (.str text, s)
    else if c = '{'.toNat then
      if depth = 0 then .error .recursion
      else scanObject (scanOnce limits n (depth - 1)) n s
    else if c = '['.toNat then
      if depth = 0 then .error .recursion
      else scanArray (scanOnce limits n (depth - 1)) n s
    else scanWord limits (c :: s)

/-- `json.loads` -/
def loads (limits : JsonLimits) (s : CodePoints) : Except JsonError JsonValue :=
  if s.head? = some 0xfeff then .error .decode
  else
    match scanOnce limits (s.length + 1) limits.depth (skipBlanks s) with
    | .error e => .error e
    | .ok (value, rest) => if skipBlanks rest = [] then .ok value else .error .decode

/-! ## What a scan leaves -/

/-- What is left of a text of which a character at least is taken. -/
def Past (s rest : CodePoints) : Prop := rest <:+ s ∧ rest.length < s.length

/-- A scan takes a character at least, and does not run out of turns. -/
def Consumes {α : Type} (s : CodePoints) : Except JsonError (α × CodePoints) → Prop
  | .ok (_, rest) => Past s rest
  | .error e => e ≠ .exhausted

variable {α β : Type} {s t rest : CodePoints} {n : ℕ}

theorem Past.cons (c : ℕ) (h : rest <:+ s) : Past (c :: s) rest :=
  ⟨h.trans (List.suffix_cons c s), Nat.lt_succ_of_le h.length_le⟩

theorem Past.suffix (h : Past s t) (hrest : rest <:+ t) : Past s rest :=
  ⟨hrest.trans h.1, lt_of_le_of_lt hrest.length_le h.2⟩

theorem Past.of_suffix (h : Past t rest) (ht : t <:+ s) : Past s rest :=
  ⟨h.1.trans ht, lt_of_lt_of_le h.2 ht.length_le⟩

theorem Consumes.bind {r : Except JsonError (α × CodePoints)}
    {f : α × CodePoints → Except JsonError (β × CodePoints)} (h : Consumes s r)
    (hf : ∀ a rest, Past s rest → Consumes s (f (a, rest))) : Consumes s (r >>= f) := by
  cases r with
  | error e => exact h
  | ok result => exact hf result.1 result.2 h

/-- A scan of what is left of a text. -/
theorem Consumes.of_suffix {r : Except JsonError (α × CodePoints)} (h : Consumes t r)
    (ht : t <:+ s) : Consumes s r := by
  cases r with
  | error e => exact h
  | ok result => exact Past.of_suffix h ht

theorem skipBlanks_suffix (s : CodePoints) : skipBlanks s <:+ s := List.dropWhile_suffix _

theorem spanDigits_suffix (s : CodePoints) : (spanDigits s).2 <:+ s := List.dropWhile_suffix _

theorem past_of_hexFour {r : ℕ × CodePoints} (h : hexFour s = some r) : Past s r.2 := by
  match s, h with
  | a :: b :: c :: d :: t, h =>
    simp only [hexFour, Option.bind_eq_bind, Option.bind_eq_some_iff] at h
    obtain ⟨_, -, _, -, _, -, _, -, h⟩ := h
    obtain rfl := Option.some.inj h
    exact Past.cons a ⟨[b, c, d], rfl⟩

theorem past_of_lowSurrogate {r : ℕ × CodePoints} (h : lowSurrogate s = some r) : Past s r.2 := by
  match s, h with
  | a :: b :: t, h =>
    rw [lowSurrogate] at h
    split at h
    · have hfour := past_of_hexFour (Option.filter_eq_some_iff.mp h).1
      exact hfour.of_suffix ⟨[a, b], rfl⟩
    · cases h

theorem consumes_scanChar (s : CodePoints) : Consumes s (scanChar s) := by
  cases s with
  | nil => exact JsonError.noConfusion
  | cons c s =>
    have hnext : Past (c :: s) s := Past.cons c List.suffix_rfl
    rw [scanChar.eq_def]
    dsimp only
    split
    · exact hnext
    · split
      · cases s with
        | nil => exact JsonError.noConfusion
        | cons e s =>
          have hsecond : Past (c :: e :: s) s := Past.cons c (List.suffix_cons e s)
          dsimp only
          split
          · cases hfour : hexFour s with
            | none => exact JsonError.noConfusion
            | some r =>
              have hhere : Past (c :: e :: s) r.2 := hsecond.suffix (past_of_hexFour hfour).1
              dsimp only
              split
              · cases hlow : lowSurrogate r.2 with
                | none => exact hhere
                | some r' => exact hhere.suffix (past_of_lowSurrogate hlow).1
              · exact hhere
          · cases escaped e with
            | none => exact JsonError.noConfusion
            | some d => exact hsecond
      · split
        · exact JsonError.noConfusion
        · exact hnext

theorem consumes_scanString (text : CodePoints) (h : s.length < n) :
    Consumes s (scanString n text s) := by
  induction n generalizing text s with
  | zero => omega
  | succ n ih =>
    refine (consumes_scanChar s).bind fun c rest hrest ↦ ?_
    cases c with
    | none => exact hrest
    | some c =>
      have hlength := hrest.2
      exact (ih (text ++ [c]) (by omega)).of_suffix hrest.1

theorem past_of_scanWhole {r : CodePoints × CodePoints} (h : scanWhole s = some r) :
    Past s r.2 := by
  cases s with
  | nil => cases h
  | cons d s =>
    rw [scanWhole] at h
    split at h
    · obtain rfl := Option.some.inj h
      exact Past.cons d List.suffix_rfl
    · split at h
      · obtain rfl := Option.some.inj h
        exact Past.cons d (spanDigits_suffix s)
      · cases h

theorem scanSign_suffix (s : CodePoints) : (scanSign s).2 <:+ s := by
  cases s with
  | nil => exact List.suffix_rfl
  | cons c s =>
    rw [scanSign]
    split
    · exact List.suffix_cons c s
    · exact List.suffix_rfl

theorem scanFraction_suffix (s : CodePoints) : (scanFraction s).2 <:+ s := by
  match s with
  | [] | [_] => exact List.suffix_rfl
  | p :: d :: t =>
    rw [scanFraction]
    split
    · exact (spanDigits_suffix t).trans ⟨[p, d], rfl⟩
    · exact List.suffix_rfl

theorem scanExponent_suffix (s : CodePoints) : (scanExponent s).2 <:+ s := by
  cases s with
  | nil => exact List.suffix_rfl
  | cons e t =>
    rw [scanExponent]
    split
    · dsimp only
      generalize t.take _ = sign
      have hdigits : (spanDigits (t.drop sign.length)).2 <:+ t :=
        (spanDigits_suffix _).trans (List.drop_suffix _ _)
      split
      · exact List.suffix_rfl
      · exact hdigits.trans (List.suffix_cons e t)
    · exact List.suffix_rfl

theorem consumes_scanNumber (limits : JsonLimits) (s : CodePoints) :
    Consumes s (scanNumber limits s) := by
  rw [scanNumber]
  dsimp only
  cases hwhole : scanWhole (scanSign s).2 with
  | none => exact JsonError.noConfusion
  | some r =>
    have hpast : Past s (scanExponent (scanFraction r.2).2).2 :=
      ((past_of_scanWhole hwhole).of_suffix (scanSign_suffix s)).suffix
        ((scanExponent_suffix _).trans (scanFraction_suffix _))
    dsimp only
    split
    · split
      · exact JsonError.noConfusion
      · exact hpast
    · exact hpast

theorem consumes_scanWord (limits : JsonLimits) (s : CodePoints) :
    Consumes s (scanWord limits s) := by
  rw [scanWord]
  cases hword : constants.find? fun constant ↦ constant.1 <+: s with
  | none => exact consumes_scanNumber limits s
  | some constant =>
    have hsome : ∀ constant ∈ constants, 0 < constant.1.length := by decide
    have hpos := hsome constant (List.mem_of_find?_eq_some hword)
    have hprefix : constant.1 <+: s := of_decide_eq_true
      (List.find?_some (p := fun constant : CodePoints × JsonValue ↦ decide (constant.1 <+: s)) hword)
    have hle := hprefix.length_le
    have hlength : (s.drop constant.1.length).length < s.length := by
      rw [List.length_drop]
      omega
    exact ⟨List.drop_suffix _ _, hlength⟩

section

variable {scanValue : CodePoints → Except JsonError (JsonValue × CodePoints)}

theorem consumes_scanItems (hvalue : ∀ t, t.length < n → Consumes t (scanValue t))
    {m : ℕ} (items : List JsonValue) (hm : s.length < m) (hn : s.length < n) :
    Consumes s (scanItems scanValue m items s) := by
  induction m generalizing items s with
  | zero => omega
  | succ m ih =>
    refine (hvalue s hn).bind fun value rest hrest ↦ ?_
    dsimp only
    have hblanks := skipBlanks_suffix rest
    cases hnext : skipBlanks rest with
    | nil => exact JsonError.noConfusion
    | cons c t =>
      rw [hnext] at hblanks
      have hpast : Past s t := hrest.suffix ((List.suffix_cons c t).trans hblanks)
      dsimp only
      split
      · exact hpast
      · split
        · have hskip := hpast.suffix (skipBlanks_suffix t)
          have hlength := hskip.2
          exact (ih (items ++ [value]) (by omega) (by omega)).of_suffix hskip.1
        · exact JsonError.noConfusion

theorem consumes_scanKey (h : s.length < n + 1) : Consumes s (scanKey n s) := by
  cases s with
  | nil => exact JsonError.noConfusion
  | cons c t =>
    rw [scanKey]
    split
    · have hstring : Consumes (c :: t) (scanString n [] t) :=
        (consumes_scanString [] (by rw [List.length_cons] at h; omega)).of_suffix
          (List.suffix_cons c t)
      refine hstring.bind fun key rest hrest ↦ ?_
      dsimp only
      have hblanks := skipBlanks_suffix rest
      cases hnext : skipBlanks rest with
      | nil => exact JsonError.noConfusion
      | cons d u =>
        rw [hnext] at hblanks
        dsimp only
        split
        · exact hrest.suffix
            ((skipBlanks_suffix u).trans ((List.suffix_cons d u).trans hblanks))
        · exact JsonError.noConfusion
    · exact JsonError.noConfusion

theorem consumes_scanMembers (hvalue : ∀ t, t.length < n → Consumes t (scanValue t))
    {m : ℕ} (items : List (CodePoints × JsonValue)) (hm : s.length < m) (hn : s.length < n) :
    Consumes s (scanMembers scanValue m items s) := by
  induction m generalizing items s with
  | zero => omega
  | succ m ih =>
    refine (consumes_scanKey hm).bind fun key afterKey hafterKey ↦ ?_
    have hshorter := hafterKey.2
    refine ((hvalue afterKey (by omega)).of_suffix hafterKey.1).bind fun value rest hrest ↦ ?_
    dsimp only
    have hblanks := skipBlanks_suffix rest
    cases hnext : skipBlanks rest with
    | nil => exact JsonError.noConfusion
    | cons c t =>
      rw [hnext] at hblanks
      have hpast : Past s t := hrest.suffix ((List.suffix_cons c t).trans hblanks)
      dsimp only
      split
      · exact hpast
      · split
        · have hskip := hpast.suffix (skipBlanks_suffix t)
          have hlength := hskip.2
          exact (ih (JsonValue.setItem items key value) (by omega) (by omega)).of_suffix hskip.1
        · exact JsonError.noConfusion

theorem consumes_scanArray (hvalue : ∀ t, t.length < n → Consumes t (scanValue t))
    (hn : s.length < n) : Consumes s (scanArray scanValue n s) := by
  rw [scanArray]
  have hblanks := skipBlanks_suffix s
  cases hnext : skipBlanks s with
  | nil => exact JsonError.noConfusion
  | cons c t =>
    rw [hnext] at hblanks
    have hlength := hblanks.length_le
    dsimp only
    split
    · exact (Past.cons c List.suffix_rfl).of_suffix hblanks
    · have hitems := consumes_scanItems hvalue [] (lt_of_le_of_lt hlength hn)
        (lt_of_le_of_lt hlength hn)
      exact (hitems.of_suffix hblanks).bind fun items rest hrest ↦ hrest

theorem consumes_scanObject (hvalue : ∀ t, t.length < n → Consumes t (scanValue t))
    (hn : s.length < n) : Consumes s (scanObject scanValue n s) := by
  rw [scanObject]
  have hblanks := skipBlanks_suffix s
  cases hnext : skipBlanks s with
  | nil => exact JsonError.noConfusion
  | cons c t =>
    rw [hnext] at hblanks
    have hlength := hblanks.length_le
    dsimp only
    split
    · exact (Past.cons c List.suffix_rfl).of_suffix hblanks
    · have hitems := consumes_scanMembers hvalue [] (lt_of_le_of_lt hlength hn)
        (lt_of_le_of_lt hlength hn)
      exact (hitems.of_suffix hblanks).bind fun items rest hrest ↦ hrest

end

theorem consumes_scanOnce (limits : JsonLimits) (depth : ℕ) (h : s.length < n) :
    Consumes s (scanOnce limits n depth s) := by
  induction n generalizing depth s with
  | zero => omega
  | succ n ih =>
    cases s with
    | nil => exact JsonError.noConfusion
    | cons c t =>
      have ht : t.length < n := by
        rw [List.length_cons] at h
        omega
      have hvalue : ∀ u : CodePoints, u.length < n →
          Consumes u (scanOnce limits n (depth - 1) u) := fun u hu ↦ ih (depth - 1) hu
      have hsuffix : t <:+ c :: t := List.suffix_cons c t
      rw [scanOnce]
      split
      · exact ((consumes_scanString [] ht).of_suffix hsuffix).bind fun text rest hrest ↦ hrest
      · split
        · split
          · exact JsonError.noConfusion
          · exact (consumes_scanObject hvalue ht).of_suffix hsuffix
        · split
          · split
            · exact JsonError.noConfusion
            · exact (consumes_scanArray hvalue ht).of_suffix hsuffix
          · exact consumes_scanWord limits (c :: t)

/-- Loading a text does not run out of turns. -/
theorem loads_ne_exhausted (limits : JsonLimits) (s : CodePoints) :
    loads limits s ≠ .error .exhausted := by
  have hscan := consumes_scanOnce limits limits.depth
    (Nat.lt_succ_of_le (skipBlanks_suffix s).length_le)
  rw [loads]
  split
  · exact fun h ↦ JsonError.noConfusion (Except.error.inj h)
  · generalize scanOnce limits (s.length + 1) limits.depth (skipBlanks s) = result at hscan
    cases result with
    | error e => exact fun h ↦ hscan (Except.error.inj h)
    | ok r =>
      dsimp only
      split
      · exact nofun
      · exact fun h ↦ JsonError.noConfusion (Except.error.inj h)

/-! ## Objects end with a brace -/

theorem exists_of_bind_eq_ok {r : Except JsonError α} {f : α → Except JsonError β} {b : β}
    (h : r >>= f = .ok b) : ∃ a, r = .ok a ∧ f a = .ok b := by
  cases r with
  | error e => cases h
  | ok a => exact ⟨a, rfl, h⟩

theorem Consumes.past {r : Except JsonError (α × CodePoints)} {a : α} (h : Consumes s r)
    (hr : r = .ok (a, rest)) : Past s rest := by
  rw [hr] at h
  exact h

theorem brace_of_scanMembers {scanValue : CodePoints → Except JsonError (JsonValue × CodePoints)}
    (hvalue : ∀ t, t.length < n → Consumes t (scanValue t)) {m : ℕ}
    {items result : List (CodePoints × JsonValue)} (hm : s.length < m) (hn : s.length < n)
    (h : scanMembers scanValue m items s = .ok (result, rest)) : '}'.toNat :: rest <:+ s := by
  induction m generalizing items s with
  | zero => omega
  | succ m ih =>
    obtain ⟨⟨key, afterKey⟩, hkey, h⟩ := exists_of_bind_eq_ok h
    obtain ⟨⟨value, afterValue⟩, hscan, h⟩ := exists_of_bind_eq_ok h
    have hafterKey := (consumes_scanKey hm).past hkey
    have hshorter := hafterKey.2
    have hafterValue := ((hvalue afterKey (by omega)).past hscan).of_suffix hafterKey.1
    have hblanks := (skipBlanks_suffix afterValue).trans hafterValue.1
    dsimp only at h
    cases hnext : skipBlanks afterValue with
    | nil =>
      rw [hnext] at h
      cases h
    | cons c t =>
      rw [hnext] at h hblanks
      dsimp only at h
      split at h
      · next hbrace =>
        obtain ⟨-, rfl⟩ := Prod.ext_iff.mp (Except.ok.inj h)
        exact hbrace ▸ hblanks
      · split at h
        · have hpast : Past s (skipBlanks t) :=
            ((Past.cons c List.suffix_rfl).of_suffix hblanks).suffix (skipBlanks_suffix t)
          have hlength := hpast.2
          exact (ih (by omega) (by omega) h).trans hpast.1
        · cases h

theorem brace_of_scanObject {scanValue : CodePoints → Except JsonError (JsonValue × CodePoints)}
    (hvalue : ∀ t, t.length < n → Consumes t (scanValue t)) {value : JsonValue}
    (hn : s.length < n) (h : scanObject scanValue n s = .ok (value, rest)) :
    '}'.toNat :: rest <:+ s := by
  rw [scanObject] at h
  have hblanks := skipBlanks_suffix s
  cases hnext : skipBlanks s with
  | nil =>
    rw [hnext] at h
    cases h
  | cons c t =>
    rw [hnext] at h hblanks
    have hlength := hblanks.length_le
    dsimp only at h
    split at h
    · next hbrace =>
      obtain ⟨-, rfl⟩ := Prod.ext_iff.mp (Except.ok.inj h)
      exact hbrace ▸ hblanks
    · obtain ⟨⟨items, after⟩, hmembers, h⟩ := exists_of_bind_eq_ok h
      obtain ⟨-, rfl⟩ := Prod.ext_iff.mp (Except.ok.inj h)
      exact (brace_of_scanMembers hvalue (lt_of_le_of_lt hlength hn) (lt_of_le_of_lt hlength hn)
        hmembers).trans hblanks

theorem scanNumber_ne_obj {limits : JsonLimits} {items : List (CodePoints × JsonValue)} :
    scanNumber limits s ≠ .ok (.obj items, rest) := by
  rw [scanNumber]
  dsimp only
  cases scanWhole (scanSign s).2 with
  | none => exact nofun
  | some r =>
    dsimp only
    split
    · split
      · exact nofun
      · exact nofun
    · exact nofun

theorem scanWord_ne_obj {limits : JsonLimits} {items : List (CodePoints × JsonValue)} :
    scanWord limits s ≠ .ok (.obj items, rest) := by
  rw [scanWord]
  cases hword : constants.find? fun constant ↦ constant.1 <+: s with
  | none => exact scanNumber_ne_obj
  | some constant =>
    have hmem := List.mem_of_find?_eq_some hword
    intro h
    have hvalue : constant.2 = .obj items := congrArg Prod.fst (Except.ok.inj h)
    simp only [constants, List.mem_cons, List.not_mem_nil, or_false] at hmem
    rcases hmem with rfl | rfl | rfl | rfl | rfl | rfl <;> cases hvalue

/-- An object is scanned from its brace to its brace. -/
theorem braces_of_scanOnce {limits : JsonLimits} {depth : ℕ}
    {items : List (CodePoints × JsonValue)} (hn : s.length < n)
    (h : scanOnce limits n depth s = .ok (.obj items, rest)) :
    ∃ m, s = '{'.toNat :: m ++ '}'.toNat :: rest := by
  cases n with
  | zero => cases h
  | succ n =>
    cases s with
    | nil => cases h
    | cons c t =>
      have ht : t.length < n := by
        rw [List.length_cons] at hn
        omega
      rw [scanOnce] at h
      split at h
      · obtain ⟨⟨text, after⟩, -, h⟩ := exists_of_bind_eq_ok h
        cases h
      · split at h
        · next hbrace =>
          split at h
          · cases h
          · obtain ⟨m, hm⟩ := brace_of_scanObject
              (fun u hu ↦ consumes_scanOnce limits (depth - 1) hu) ht h
            exact ⟨m, by rw [hbrace, ← hm, List.cons_append]⟩
        · split at h
          · split at h
            · cases h
            · rw [scanArray] at h
              split at h
              · cases h
              · split at h
                · cases h
                · obtain ⟨⟨items, after⟩, -, h⟩ := exists_of_bind_eq_ok h
                  cases h
          · exact absurd h scanWord_ne_obj

/-- A text that loads to an object is that object between its braces, and white space. -/
theorem braces_of_loads {limits : JsonLimits} {items : List (CodePoints × JsonValue)}
    (h : loads limits s = .ok (.obj items)) :
    ∃ before m after, s = before ++ ('{'.toNat :: m ++ ['}'.toNat]) ++ after ∧
      (∀ c ∈ before, c ∈ of " \t\n\r") ∧ ∀ c ∈ after, c ∈ of " \t\n\r" := by
  rw [loads] at h
  split at h
  · cases h
  · cases hscan : scanOnce limits (s.length + 1) limits.depth (skipBlanks s) with
    | error e =>
      rw [hscan] at h
      cases h
    | ok result =>
      obtain ⟨value, rest⟩ := result
      rw [hscan] at h
      dsimp only at h
      split at h
      · next hrest =>
        obtain rfl := Except.ok.inj h
        obtain ⟨m, hm⟩ :=
          braces_of_scanOnce (Nat.lt_succ_of_le (skipBlanks_suffix s).length_le) hscan
        refine ⟨s.takeWhile fun c ↦ c ∈ of " \t\n\r", m, rest, ?_, ?_, ?_⟩
        · calc s = (s.takeWhile fun c ↦ c ∈ of " \t\n\r") ++ skipBlanks s :=
              (List.takeWhile_append_dropWhile).symm
            _ = _ := by rw [hm]; simp
        · exact fun c hc ↦ by simpa only [decide_eq_true_eq] using List.mem_takeWhile_imp hc
        · exact fun c hc ↦ of_decide_eq_true (List.dropWhile_eq_nil_iff.mp hrest c hc)
      · cases h

end JsonText

end GreenCompute
