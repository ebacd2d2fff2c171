import Mathlib.Data.List.Basic
import Mathlib.Data.Nat.Digits

/-!
`try_parse_event_ring_config`: the command-line form of the execution event
ring, `<ring-name-or-path>[:<descriptor-shift>:<payload-buffer-shift>]`.

The string is cut at every `':'` (`std::views::split`, which gives no piece at
all for the empty string); there must be one to three pieces. An absent or
empty shift takes its default, any other is parsed by `try_parse_int_token`,
which accepts exactly what `std::from_chars` reads in full, in base 10, to a
value of the field's type.

`EventRingConfig`, the types of its shift fields and the two defaults are not
declared in the source: the shift fields are unsigned integers with `D` and `P`
values (so `from_chars` reads no sign), and the defaults are parameters.

* `fromChars_eq_full` — `from_chars` reads a token in full exactly when it is a
  non-empty decimal numeral whose value fits.
* `tryParseEventRingConfig_spec` — the parser accepts exactly the non-empty
  strings with at most two colons whose shifts are absent, empty or read in
  full to a value in range, and returns the first piece and the two shifts; a
  name without `':'` and two shifts in decimal parse back to themselves.
* `tryParseEventRingConfig_eq_error` — a rejected string gets the format
  message, or the message of its first rejected shift, which names the field
  and the token (`parseShift_eq_error`).
-/

namespace MonadFork

/-- The value of a string of decimal digits. -/
def decimalValue (digits : List Char) : Nat :=
  digits.foldl (fun value c => 10 * value + (c.toNat - '0'.toNat)) 0

/-- Why `std::from_chars` fails. -/
inductive FromCharsError where
  | invalidArgument
  | resultOutOfRange
deriving DecidableEq, Repr

/-- `std::error_condition{ec}.message()`, as glibc words it. -/
def FromCharsError.message : FromCharsError → String
  | .invalidArgument => "Invalid argument"
  | .resultOutOfRange => "Numerical result out of range"

/-- `std::error_condition{ec}.value()`: the `errno` value on Linux. -/
def FromCharsError.value : FromCharsError → Nat
  | .invalidArgument => 22
  | .resultOutOfRange => 34

/-- `std::from_chars(first, last, value, 10)` into an unsigned type with `size`
values: it reads the longest prefix of decimal digits; with none it fails with
`invalid_argument` having read nothing, and with a value that does not fit it
fails with `result_out_of_range` past the digits. The number of characters read
(`ptr - first`) comes with the result. -/
def fromChars (size : Nat) (s : List Char) : Nat × Except FromCharsError (Fin size) :=
  let digits := s.takeWhile Char.isDigit
  if digits = [] then (0, .error .invalidArgument)
  else if h : decimalValue digits < size then (digits.length, .ok ⟨decimalValue digits, h⟩)
  else (digits.length, .error .resultOutOfRange)

/-- `try_parse_int_token`: the value, or the message for a token with
characters `from_chars` does not read, or for a value it cannot store. -/
def tryParseIntToken (size : Nat) (s : List Char) : Except String (Fin size) :=
  let text := String.mk s
  match fromChars size s with
  | (read, result) =>
    if read ≠ s.length then .error s!"{text} contains non-integer characters"
    else
      match result with
      | .ok value => .ok value
      | .error e =>
        let message := e.message
        let value := e.value
        .error s!"could not parse {text} as integer: {message} ({value})"

/-- `std::views::split(s, ':')`: nothing for the empty string, else the pieces
between the colons, with an empty piece where two colons meet or at either
end. -/
def splitColons (s : List Char) : List (List Char) :=
  if s = [] then [] else s.splitOn ':'

/-- The parsed configuration. -/
structure EventRingConfig (D P : Nat) where
  eventRingSpec : String
  descriptorsShift : Fin D
  payloadBufShift : Fin P
deriving DecidableEq, Repr

/-- The part of `try_parse_event_ring_config` that sets one shift: the default
when its token is absent or empty, else the token parsed, with the field's name
in the error. -/
def parseShift (size : Nat) (default : Fin size) (field : String) :
    Option (List Char) → Except String (Fin size)
  | none => .ok default
  | some [] => .ok default
  | some token =>
    match tryParseIntToken size token with
    | .ok value => .ok value
    | .error err =>
      let text := String.mk token
      .error s!"parse error in {field} `{text}`: {err}"

/-- A shift token as the grammar reads it: absent or empty, and the default
taken; or read in full by `from_chars` to the value `v`. -/
def ShiftToken (size : Nat) (default : Fin size) : Option (List Char) → Fin size → Prop
  | none, v => v = default
  | some [], v => v = default
  | some (c :: cs), v => fromChars size (c :: cs) = ((c :: cs).length, .ok v)

section Parse

variable {D P : Nat} (defaultExecRingDescriptorsShift : Fin D)
  (defaultExecRingPayloadBufShift : Fin P)

/-- `try_parse_event_ring_config`. -/
def tryParseEventRingConfig (s : List Char) : Except String (EventRingConfig D P) :=
  let tokens := splitColons s
  let text := String.mk s
  if tokens.length < 1 ∨ tokens.length > 3 then
    .error s!"input `{text}` does not have expected format <ring-name-or-path>[:<descriptor-shift>:<payload-buffer-shift>]"
  else do
    let descriptorsShift ←
      parseShift D defaultExecRingDescriptorsShift "ring_shift" tokens[1]?
    let payloadBufShift ←
      parseShift P defaultExecRingPayloadBufShift "payload_buffer_shift" tokens[2]?
    pure ⟨String.mk (tokens.headD []), descriptorsShift, payloadBufShift⟩

/-! ### Reading one token -/

theorem decimalValue_concat (digits : List Char) (c : Char) :
    decimalValue (digits ++ [c]) = 10 * decimalValue digits + (c.toNat - '0'.toNat) := by
  simp [decimalValue, List.foldl_append]

/-- **`from_chars` reads a token in full** exactly when it is a non-empty
string of decimal digits whose value fits. -/
theorem fromChars_eq_full {size : Nat} {t : List Char} {v : Fin size} :
    fromChars size t = (t.length, .ok v) ↔
      t ≠ [] ∧ (∀ c ∈ t, c.isDigit = true) ∧ decimalValue t = v := by
  unfold fromChars
  by_cases hall : ∀ c ∈ t, c.isDigit = true
  · rw [List.takeWhile_eq_self_iff.mpr hall]
    by_cases hne : t = []
    · simp [hne]
    · by_cases h : decimalValue t < size
      · simp [hne, h, Fin.ext_iff]
        exact fun _ => hall
      · rw [if_neg hne, dif_neg h]
        simp only [Prod.mk.injEq, reduceCtorEq, and_false, false_iff]
        exact fun ⟨_, _, hv⟩ => h (hv ▸ v.isLt)
  · have hle : (t.takeWhile Char.isDigit).length ≤ t.length := (List.takeWhile_prefix _).length_le
    have hlt : (t.takeWhile Char.isDigit).length < t.length := lt_of_le_of_ne hle fun heq =>
      hall (List.takeWhile_eq_self_iff.mp ((List.takeWhile_prefix _).eq_of_length heq))
    refine iff_of_false ?_ fun h => hall h.2.1
    dsimp only
    split_ifs <;> simp only [Prod.mk.injEq, not_and] <;> intro h <;> omega

theorem tryParseIntToken_eq_ok {size : Nat} {t : List Char} {v : Fin size} :
    tryParseIntToken size t = .ok v ↔ fromChars size t = (t.length, .ok v) := by
  unfold tryParseIntToken
  rcases fromChars size t with ⟨read, _ | value⟩ <;> by_cases hread : read = t.length <;>
    simp [hread]

/-- A shift is set to `v` exactly when its token is absent or empty and `v` is
the default, or `from_chars` reads the token in full to `v`. -/
theorem parseShift_eq_ok {size : Nat} {default : Fin size} {field : String}
    {token : Option (List Char)} {v : Fin size} :
    parseShift size default field token = .ok v ↔ ShiftToken size default token v := by
  rcases token with _ | _ | ⟨c, cs⟩
  · simp [parseShift, ShiftToken, eq_comm]
  · simp [parseShift, ShiftToken, eq_comm]
  · simp only [parseShift, ShiftToken, ← tryParseIntToken_eq_ok]
    rcases tryParseIntToken size (c :: cs) with _ | _ <;> simp

/-- A shift fails only on a non-empty token that `try_parse_int_token`
rejects, and its message names the field and the token. -/
theorem parseShift_eq_error {size : Nat} {default : Fin size} {field : String}
    {token : Option (List Char)} {err : String} :
    parseShift size default field token = .error err ↔
      ∃ t e, token = some t ∧ t ≠ [] ∧ tryParseIntToken size t = .error e ∧
        err = "parse error in " ++ field ++ " `" ++ String.mk t ++ "`: " ++ e := by
  rcases token with _ | _ | ⟨c, cs⟩
  · simp [parseShift]
  · simp [parseShift]
  · rcases h : tryParseIntToken size (c :: cs) with e | v <;> simp [parseShift, h, eq_comm, toString]

/-! ### The pieces -/

theorem length_splitOnP {α : Type} (p : α → Bool) (xs : List α) :
    (xs.splitOnP p).length = xs.countP p + 1 := by
  induction xs with
  | nil => rfl
  | cons x xs ih => by_cases h : p x <;> simp [h, ih, List.countP_cons]

/-- A non-empty string has one piece more than it has colons. -/
theorem splitColons_length {s : List Char} (hs : s ≠ []) :
    (splitColons s).length = s.count ':' + 1 := by
  simp [splitColons, hs, List.splitOn, length_splitOnP, List.count]

/-! ### The whole string -/

/-- **What the parser accepts**: exactly the non-empty strings with at most two
colons whose two shifts are absent, empty, or read in full to a value that
fits; the name is the first piece. -/
theorem tryParseEventRingConfig_eq_ok {s : List Char} {cfg : EventRingConfig D P} :
    tryParseEventRingConfig defaultExecRingDescriptorsShift defaultExecRingPayloadBufShift s =
        .ok cfg ↔
      s ≠ [] ∧ s.count ':' ≤ 2 ∧ cfg.eventRingSpec = String.mk ((s.splitOn ':').headD []) ∧
        ShiftToken D defaultExecRingDescriptorsShift (s.splitOn ':')[1]? cfg.descriptorsShift ∧
        ShiftToken P defaultExecRingPayloadBufShift (s.splitOn ':')[2]? cfg.payloadBufShift := by
  by_cases hs : s = []
  · simp [tryParseEventRingConfig, splitColons, hs]
  have hlen := splitColons_length hs
  simp only [splitColons, hs, if_false] at hlen
  rw [← @parseShift_eq_ok _ _ "ring_shift", ← @parseShift_eq_ok _ _ "payload_buffer_shift"]
  simp only [tryParseEventRingConfig, splitColons, hs, if_false, ne_eq, not_false_eq_true,
    true_and, hlen]
  by_cases hc : s.count ':' ≤ 2
  · rw [if_neg (by omega)]
    rcases parseShift D defaultExecRingDescriptorsShift "ring_shift" (s.splitOn ':')[1]? with
      _ | descriptorsShift <;>
    rcases parseShift P defaultExecRingPayloadBufShift "payload_buffer_shift"
      (s.splitOn ':')[2]? with _ | payloadBufShift <;>
    rcases cfg with ⟨spec, d, p⟩ <;>
    simp [hc, bind, Except.bind, pure, Except.pure, eq_comm, and_assoc]
  · rw [if_pos (by omega)]
    simp [hc]

/-- **Every rejection names what it checks**: the expected format, for a
string that is empty or has more than two colons; else the first shift whose
token is rejected (`parseShift_eq_error` gives its message). -/
theorem tryParseEventRingConfig_eq_error {s : List Char} {err : String} :
    tryParseEventRingConfig defaultExecRingDescriptorsShift defaultExecRingPayloadBufShift s =
        .error err ↔
      (s = [] ∨ 2 < s.count ':') ∧ err = "input `" ++ String.mk s ++
          "` does not have expected format <ring-name-or-path>[:<descriptor-shift>:<payload-buffer-shift>]" ∨
      s ≠ [] ∧ s.count ':' ≤ 2 ∧
        (parseShift D defaultExecRingDescriptorsShift "ring_shift" (s.splitOn ':')[1]? = .error err ∨
          ∃ d, parseShift D defaultExecRingDescriptorsShift "ring_shift" (s.splitOn ':')[1]? = .ok d ∧
            parseShift P defaultExecRingPayloadBufShift "payload_buffer_shift" (s.splitOn ':')[2]? =
              .error err) := by
  by_cases hs : s = []
  · simp [tryParseEventRingConfig, splitColons, hs, eq_comm, toString]
  have hlen := splitColons_length hs
  simp only [splitColons, hs, if_false] at hlen
  simp only [tryParseEventRingConfig, splitColons, hs, if_false, hlen]
  by_cases hc : s.count ':' ≤ 2
  · rw [if_neg (by omega)]
    rcases parseShift D defaultExecRingDescriptorsShift "ring_shift" (s.splitOn ':')[1]? with
      _ | descriptorsShift <;>
    rcases parseShift P defaultExecRingPayloadBufShift "payload_buffer_shift"
      (s.splitOn ':')[2]? with _ | payloadBufShift <;>
    simp [hs, hc, bind, Except.bind, pure, Except.pure, eq_comm]
  · rw [if_pos (by omega)]
    simp [hs, not_le.mp hc, eq_comm, toString]

theorem digitChar_spec {k : Nat} (hk : k < 10) :
    (Nat.digitChar k).isDigit = true ∧ (Nat.digitChar k).toNat - '0'.toNat = k :=
  (by decide : ∀ k : Fin 10,
    (Nat.digitChar k).isDigit = true ∧ (Nat.digitChar k).toNat - '0'.toNat = k) ⟨k, hk⟩

/-- `Nat.toDigitsCore` with enough fuel puts in front of its accumulator a
non-empty string of decimal digits whose value is the number. -/
theorem toDigitsCore_spec (fuel n : Nat) (ds : List Char) (hn : n < fuel) :
    ∃ pre, Nat.toDigitsCore 10 fuel n ds = pre ++ ds ∧ pre ≠ [] ∧
      (∀ c ∈ pre, c.isDigit = true) ∧ decimalValue pre = n := by
  induction fuel generalizing n ds with
  | zero => omega
  | succ fuel ih =>
    have hd := digitChar_spec (Nat.mod_lt n (by omega : 10 > 0))
    rw [Nat.toDigitsCore]
    split_ifs with h
    · refine ⟨[Nat.digitChar (n % 10)], rfl, by simp, by simpa using hd.1, ?_⟩
      simp only [decimalValue, List.foldl_cons, List.foldl_nil, Nat.mul_zero, Nat.zero_add, hd.2]
      omega
    · obtain ⟨pre, hpre, hne, hdig, hval⟩ := ih (n / 10) (Nat.digitChar (n % 10) :: ds) (by omega)
      refine ⟨pre ++ [Nat.digitChar (n % 10)], by simp [hpre], by simp, ?_, ?_⟩
      · simpa [or_imp, forall_and] using ⟨hdig, hd.1⟩
      · rw [decimalValue_concat, hval, hd.2]; omega

/-- `std::format("{}", n)` for the shifts: `Nat.repr` is a non-empty string of
decimal digits with value `n`. -/
theorem repr_spec (n : Nat) :
    (Nat.repr n).toList ≠ [] ∧ (∀ c ∈ (Nat.repr n).toList, c.isDigit = true) ∧
      decimalValue (Nat.repr n).toList = n := by
  obtain ⟨pre, hpre, hne, hdig, hval⟩ := toDigitsCore_spec (n + 1) n [] (by omega)
  have : (Nat.repr n).toList = pre := by simpa using hpre
  exact this ▸ ⟨hne, hdig, hval⟩

theorem shiftToken_repr {size : Nat} (default : Fin size) (v : Fin size) :
    ShiftToken size default (some (Nat.repr v).toList) v := by
  obtain ⟨hne, hdig, hval⟩ := repr_spec v
  obtain ⟨c, cs, hcs⟩ := List.exists_cons_of_ne_nil hne
  rw [hcs] at hdig hval ⊢
  exact fromChars_eq_full.mpr ⟨List.cons_ne_nil _ _, hdig, hval⟩

/-- **Round trip**: a name without colons and two shifts written in decimal
parse back to themselves. -/
theorem tryParseEventRingConfig_repr (name : List Char) (hname : ':' ∉ name) (d : Fin D)
    (p : Fin P) :
    tryParseEventRingConfig defaultExecRingDescriptorsShift defaultExecRingPayloadBufShift
        (name ++ ':' :: (Nat.repr d).toList ++ ':' :: (Nat.repr p).toList) =
      .ok ⟨String.mk name, d, p⟩ := by
  have hcolon : ∀ n : Nat, ':' ∉ (Nat.repr n).toList := fun n h => by
    simpa using (repr_spec n).2.1 _ h
  have hd := shiftToken_repr defaultExecRingDescriptorsShift d
  have hp := shiftToken_repr defaultExecRingPayloadBufShift p
  have hdc := hcolon d
  have hpc := hcolon p
  generalize (Nat.repr d).toList = ds at hd hdc ⊢
  generalize (Nat.repr p).toList = ps at hp hpc ⊢
  have hsplit : (name ++ ':' :: ds ++ ':' :: ps).splitOn ':' = [name, ds, ps] := by
    simpa [List.intercalate] using
      List.splitOn_intercalate [name, ds, ps] ':' (by simp [hname, hdc, hpc]) (by simp)
  have hcount : (name ++ ':' :: ds ++ ':' :: ps).count ':' = 2 := by
    simp [List.count_cons, List.count_eq_zero_of_not_mem, hname, hdc, hpc]
  refine (tryParseEventRingConfig_eq_ok _ _).mpr ⟨by simp, by omega, ?_, ?_, ?_⟩ <;> rw [hsplit]
  · rfl
  · exact hd
  · exact hp

/-- **The ring configuration grammar.** `try_parse_event_ring_config` accepts
exactly the non-empty strings with at most two colons whose second and third
pieces are absent, empty, or read in full by `from_chars` to a value of the
field, and returns the first piece with the two shifts, the defaults for the
absent or empty ones; so a name without colons and two shifts in decimal parse
back to themselves. -/
theorem tryParseEventRingConfig_spec :
    (∀ s (cfg : EventRingConfig D P),
      tryParseEventRingConfig defaultExecRingDescriptorsShift defaultExecRingPayloadBufShift s =
          .ok cfg ↔
        s ≠ [] ∧ s.count ':' ≤ 2 ∧ cfg.eventRingSpec = String.mk ((s.splitOn ':').headD []) ∧
          ShiftToken D defaultExecRingDescriptorsShift (s.splitOn ':')[1]? cfg.descriptorsShift ∧
          ShiftToken P defaultExecRingPayloadBufShift (s.splitOn ':')[2]? cfg.payloadBufShift) ∧
      ∀ name, ':' ∉ name → ∀ (d : Fin D) (p : Fin P),
        tryParseEventRingConfig defaultExecRingDescriptorsShift defaultExecRingPayloadBufShift
            (name ++ ':' :: (Nat.repr d).toList ++ ':' :: (Nat.repr p).toList) =
          .ok ⟨String.mk name, d, p⟩ :=
  ⟨fun _ _ => tryParseEventRingConfig_eq_ok _ _, tryParseEventRingConfig_repr _ _⟩

end Parse

/-- With one-byte shifts and defaults 20 and 30, `ring:16:28` parses back. -/
theorem tryParseEventRingConfig_ring_16_28 :
    ':' ∉ "ring".toList ∧
      tryParseEventRingConfig (20 : Fin 256) (30 : Fin 256)
          ("ring".toList ++ ':' :: (Nat.repr 16).toList ++ ':' :: (Nat.repr 28).toList) =
        .ok ⟨"ring", 16, 28⟩ :=
  ⟨by decide, (tryParseEventRingConfig_spec (20 : Fin 256) (30 : Fin 256)).2 _ (by decide) 16 28⟩

end MonadFork
