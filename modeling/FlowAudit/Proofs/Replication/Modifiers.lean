import FlowAudit.Proofs.Replication.WrittenPlan
/-!
The grammar of modifiers. Exactly the texts of the grammar are read, each as the number that its
digits denote, and every other value is refused with its own text. While the digits are read, the
offset and the next digit together never exceed 64 bits.
-/
namespace FlowAudit

namespace Modifier

/-- A text that asks for an operation with these digits. Blanks may stand around the whole and
around the digits, but not behind the name. -/
structure Spells (text digits : List Char) : Prop where
  form : ∃ before name opening closing after : List Char,
    text = before ++ ((name ++ '(' :: (opening ++ (digits ++ closing) ++ [')'])) ++ after) ∧
      name ∈ ["addConstant".toList, "addOffset".toList] ∧ (∀ c ∈ before, Text.isBlank c) ∧
      (∀ c ∈ opening, Text.isBlank c) ∧ (∀ c ∈ closing, Text.isBlank c) ∧
      ∀ c ∈ after, Text.isBlank c
  nonempty : digits ≠ []
  digit : ∀ c ∈ digits, c.isDigit

/-- Both names of the operation are read up to the opening bracket. -/
theorem afterOperation?_eq_some_iff {cs rest : List Char} :
    afterOperation? cs = some rest ↔
      ∃ name ∈ ["addConstant".toList, "addOffset".toList], cs = name ++ '(' :: rest := by
  constructor
  · intro h
    obtain ⟨operation, hOperation, hRest⟩ := List.exists_of_findSome?_eq_some h
    split at hRest
    · next hPrefix =>
        obtain ⟨tail, rfl⟩ := List.isPrefixOf_iff_prefix.mp hPrefix
        cases hRest
        rw [← String.length_toList, List.drop_left]
        rcases List.mem_pair.mp hOperation with rfl | rfl
        · exact ⟨_, List.mem_cons_self .., rfl⟩
        · exact ⟨_, List.mem_cons_of_mem _ (List.mem_cons_self ..), rfl⟩
    · cases hRest
  · rintro ⟨name, hName, rfl⟩
    rcases List.mem_pair.mp hName with rfl | rfl <;> rfl

/-- An operation begins with a letter and ends with a bracket. -/
theorem trim_operation {name argument before after : List Char}
    (hName : name ∈ ["addConstant".toList, "addOffset".toList])
    (hBefore : ∀ c ∈ before, Text.isBlank c) (hAfter : ∀ c ∈ after, Text.isBlank c) :
    Text.trim (before ++ ((name ++ '(' :: (argument ++ [')'])) ++ after)) =
      name ++ '(' :: (argument ++ [')']) := by
  have hFirst : (name ++ '(' :: (argument ++ [')'])).head? = some 'a' := by
    rcases List.mem_pair.mp hName with rfl | rfl <;> rfl
  have hLast : (name ++ '(' :: (argument ++ [')'])).getLast? = some ')' := by
    rw [← List.cons_append, ← List.append_assoc, List.getLast?_concat]
  apply Text.trim_append hBefore hAfter
  · exact List.ne_nil_of_mem (List.mem_of_mem_head? hFirst)
  · rw [hFirst]
    rintro _ ⟨⟩
    decide
  · rw [hLast]
    rintro _ ⟨⟩
    decide

/-- The reader accepts exactly the texts of the grammar. -/
theorem read?_eq_some_iff {text : List Char} {m : Modifier} :
    read? text = some m ↔ ∃ digits, Spells text digits ∧ ofDecimal digits = m := by
  constructor
  · intro h
    obtain ⟨rest, hRest, h⟩ := Option.bind_eq_some_iff.mp h
    obtain ⟨name, hName, hCore⟩ := afterOperation?_eq_some_iff.mp hRest
    split at h
    · cases h
    · next hLast =>
        obtain ⟨argument, rfl⟩ := List.getLast?_eq_some_iff.mp (not_not.mp hLast)
        rw [List.dropLast_concat] at h
        simp only at h
        split at h
        · cases h
        · next hDigits =>
            obtain ⟨hSome, hAll⟩ := not_or.mp hDigits
            obtain ⟨before, after, hText, hBefore, hAfter⟩ := Text.exists_blanks_around_trim text
            obtain ⟨opening, closing, hArgument, hOpening, hClosing⟩ :=
              Text.exists_blanks_around_trim argument
            refine ⟨Text.trim argument, ⟨⟨before, name, opening, closing, after, ?_, hName, hBefore,
              hOpening, hClosing, hAfter⟩, ?_, ?_⟩, Option.some.inj h⟩
            · rw [← hArgument, ← hCore, ← hText]
            · rwa [List.isEmpty_iff] at hSome
            · simpa using hAll
  · rintro ⟨digits, ⟨⟨before, name, opening, closing, after, rfl, hName, hBefore, hOpening,
      hClosing, hAfter⟩, hSome, hDigit⟩, rfl⟩
    have hBlank : ∀ c ∈ digits, Text.isBlank c = false :=
      fun c hc => Text.isBlank_of_isDigit (hDigit c hc)
    have hArgument : Text.trim (opening ++ (digits ++ closing)) = digits :=
      Text.trim_append hOpening hClosing hSome
        (fun c hc => hBlank c (List.mem_of_mem_head? hc))
        (fun c hc => hBlank c (List.mem_of_mem_getLast? hc))
    have hDigits : ¬(digits.isEmpty ∨ !digits.all Char.isDigit) := by
      simpa [hSome] using hDigit
    refine Option.bind_eq_some_iff.mpr ⟨opening ++ (digits ++ closing) ++ [')'], ?_, ?_⟩
    · rw [trim_operation hName hBefore hAfter]
      exact afterOperation?_eq_some_iff.mpr ⟨name, hName, rfl⟩
    · simp only [List.getLast?_concat, List.dropLast_concat, hArgument, if_neg hDigits]
      rfl

/-- A modifier is fixed by its offset, and this is the written number modulo the size of an address
word. -/
theorem read?_eq_some_iff_offset {text : List Char} {m : Modifier} :
    read? text = some m ↔
      ∃ digits, Spells text digits ∧ m.offset.toNat = Decimal.natOfDigits digits % 2 ^ 32 := by
  rw [read?_eq_some_iff]
  refine exists_congr fun digits => and_congr_right fun h => ?_
  have hOffset := offset_ofDecimal digits
  rw [List.filter_eq_self.mpr h.digit] at hOffset
  rw [← hOffset, UInt32.toNat_inj]
  cases m
  exact ⟨fun h => h ▸ rfl, fun h => congrArg Modifier.mk h.symm⟩

/-- The word for nothing is no operation. -/
theorem not_spells_of_trimmed {s : String} (h : Text.trimmed s = "None") (digits : List Char) :
    ¬Spells s.toList digits := by
  rintro ⟨⟨before, name, opening, closing, after, hText, hName, hBefore, -, -, hAfter⟩, -, -⟩
  have hTrim : Text.trim s.toList = "None".toList := by
    rw [← h, Text.trimmed, String.toList_ofList]
  rw [hText, trim_operation hName hBefore hAfter] at hTrim
  rcases List.mem_pair.mp hName with rfl | rfl <;> cases hTrim

/-- Reducing after each digit keeps the offset within 32 bits. -/
theorem foldl_appendDigit_lt (digits : List Char) :
    digits.foldl appendDigit 0 < UInt32.size := by
  have hFold := foldl_appendDigit digits 0
  rw [Nat.zero_mod] at hFold
  rw [hFold]
  exact Nat.mod_lt _ (by decide)

/-- One more digit needs at most 36 bits before it is reduced. -/
theorem appendDigit_fits {c : Char} (h : c.isDigit) (front : List Char) :
    front.foldl appendDigit 0 * 10 + (c.toNat - '0'.toNat) < UInt64.size := by
  have hOffset : front.foldl appendDigit 0 < 2 ^ 32 := foldl_appendDigit_lt front
  have hDigit : c.toNat ≤ 57 := (Char.isDigit_iff_toNat.mp h).2
  have hZero : '0'.toNat = 48 := rfl
  have hSize : UInt64.size = 2 ^ 64 := rfl
  omega

/-- The values of a field that stand for no modifier. -/
def IsAbsent (v : Json) : Prop :=
  v = .null ∨ ∃ s, v = .string s ∧ Text.trimmed s = "None"

/-- The text that an error repeats: the string itself, or the compact form of any other value. -/
def repeated : Json → String
  | .string s => s
  | v => v.canonical.compact

/-- The word for no modifier may stand between blanks. What is neither this word nor a modifier is
refused, with the text as it was written. -/
theorem parse_string (field s : String) :
    parse field (.string s) = if Text.trimmed s = "None" then .ok none
      else (read? s.toList).elim (.error (.unsupportedModifier field s)) fun m => .ok (some m) := by
  rw [parse]
  split
  · rfl
  · cases read? s.toList <;> rfl

/-- Exactly absent values stand for no modifier. -/
theorem parse_eq_none_iff {field : String} {v : Json} :
    parse field v = .ok none ↔ IsAbsent v := by
  cases v with
  | null => exact iff_of_true rfl (.inl rfl)
  | string s =>
      rw [parse_string, IsAbsent]
      by_cases hNone : Text.trimmed s = "None"
      · simp [hNone]
      · cases read? s.toList <;> simp [hNone]
  | _ => exact iff_of_false nofun (by simp [IsAbsent])

/-- Exactly the texts of the grammar stand for a modifier. -/
theorem parse_eq_some_iff {field : String} {v : Json} {m : Modifier} :
    parse field v = .ok (some m) ↔ ∃ s digits, v = .string s ∧ Spells s.toList digits ∧
      m.offset.toNat = Decimal.natOfDigits digits % 2 ^ 32 := by
  cases v with
  | string s =>
      have hRead : parse field (.string s) = .ok (some m) ↔ read? s.toList = some m := by
        rw [parse_string]
        by_cases hNone : Text.trimmed s = "None"
        · have hNot : read? s.toList ≠ some m := by
            intro h
            obtain ⟨digits, hSpells, -⟩ := read?_eq_some_iff.mp h
            exact not_spells_of_trimmed hNone digits hSpells
          simp [hNone, hNot]
        · cases read? s.toList <;> simp [hNone]
      rw [hRead, read?_eq_some_iff_offset]
      constructor
      · rintro ⟨digits, h⟩
        exact ⟨s, digits, rfl, h⟩
      · rintro ⟨_, digits, ⟨⟩, h⟩
        exact ⟨digits, h⟩
  | _ => exact iff_of_false nofun nofun

/-- The error repeats the value. -/
theorem eq_of_parse_eq_error {field : String} {v : Json} {e : ReplicationError}
    (h : parse field v = .error e) : e = .unsupportedModifier field (repeated v) := by
  cases v with
  | null => cases h
  | string s =>
      rw [parse_string] at h
      split at h
      · cases h
      · cases hRead : read? s.toList with
        | none =>
            rw [hRead] at h
            exact (Except.error.inj h).symm
        | some m =>
            rw [hRead] at h
            cases h
  | _ => exact (Except.error.inj h).symm

/-- What a field with a modifier can be. There is none for null and for the word for nothing, and
there is one exactly for the texts of the grammar: it adds the number that is written, of any
length, modulo `2 ^ 32`. Every other value is refused, and the error repeats the field and the
value. No digit makes the offset exceed 64 bits on the way. -/
theorem parse_grammar (field : String) (v : Json) :
    (parse field v = .ok none ↔ IsAbsent v) ∧
    (∀ m, parse field v = .ok (some m) ↔ ∃ s digits, v = .string s ∧ Spells s.toList digits ∧
      m.offset.toNat = Decimal.natOfDigits digits % 2 ^ 32) ∧
    (∀ e, parse field v = .error e ↔ ¬IsAbsent v ∧
      (¬∃ s digits, v = .string s ∧ Spells s.toList digits) ∧
        e = .unsupportedModifier field (repeated v)) ∧
    ∀ digits : List Char, (∀ c ∈ digits, c.isDigit) → ∀ front c back, digits = front ++ c :: back →
      front.foldl appendDigit 0 * 10 + (c.toNat - '0'.toNat) < UInt64.size := by
  refine ⟨parse_eq_none_iff, fun m => parse_eq_some_iff, fun e => ?_, ?_⟩
  · constructor
    · intro h
      refine ⟨fun hAbsent => ?_, ?_, eq_of_parse_eq_error h⟩
      · rw [parse_eq_none_iff.mpr hAbsent] at h
        cases h
      · rintro ⟨s, digits, rfl, hSpells⟩
        obtain ⟨m, hRead⟩ : ∃ m, read? s.toList = some m :=
          ⟨_, read?_eq_some_iff.mpr ⟨digits, hSpells, rfl⟩⟩
        obtain ⟨_, hOther, hOffset⟩ := read?_eq_some_iff_offset.mp hRead
        rw [parse_eq_some_iff.mpr ⟨s, _, rfl, hOther, hOffset⟩] at h
        cases h
    · rintro ⟨hSome, hNot, rfl⟩
      cases h : parse field v with
      | error e => rw [eq_of_parse_eq_error h]
      | ok m? =>
          cases m? with
          | none => exact absurd (parse_eq_none_iff.mp h) hSome
          | some m =>
              obtain ⟨s, digits, hString, hSpells, -⟩ := parse_eq_some_iff.mp h
              exact absurd ⟨s, digits, hString, hSpells⟩ hNot
  · rintro _ hDigit front c back rfl
    exact appendDigit_fits (hDigit c (by simp)) front

/-- Twenty digits with blanks around them, one of which is no ASCII character. -/
theorem parse_grammar_long_number :
    let text := " addOffset(\u00a018446744073709551621\t)\n"
    let digits := "18446744073709551621".toList
    let m : Modifier := ⟨5⟩
    Spells text.toList digits ∧ Decimal.natOfDigits digits = 2 ^ 64 + 5 ∧
      parse "srcip" (.string text) = .ok (some m) ∧
      ("1844674407370955162".toList.foldl appendDigit 0) * 10 + ('1'.toNat - '0'.toNat) <
        UInt64.size := by
  intro text digits m
  have hDigit : ∀ c ∈ digits, c.isDigit := List.all_eq_true.mp (by decide)
  have hBlank : ∀ c ∈ [' ', '\u00a0', '\t', '\n'], Text.isBlank c :=
    List.all_eq_true.mp (by decide)
  have hSpells : Spells text.toList digits := by
    refine ⟨⟨[' '], "addOffset".toList, ['\u00a0'], ['\t'], ['\n'], by decide, by simp, ?_⟩,
      by decide, hDigit⟩
    simp [hBlank]
  obtain ⟨-, hSome, -, hFits⟩ := parse_grammar "srcip" (.string text)
  refine ⟨hSpells, by decide, (hSome m).mpr ⟨text, digits, rfl, hSpells, by decide⟩, ?_⟩
  exact hFits digits hDigit "1844674407370955162".toList '1' [] rfl

end Modifier

end FlowAudit
