import FlowAudit.Proofs.Traversal
import FlowAudit.Decimal.Unsigned
import Mathlib
/-!
The digits of a number in a base up to sixteen, as they are written and as they are read back, and
texts that are joined with a separator.
-/
namespace FlowAudit

/-- Texts with a separator between them. Where other texts precede, one more stands in front. -/
def separated (sep : Char) (first : Bool) (texts : List (List Char)) : List Char :=
  if first then [sep].intercalate texts else texts.flatMap (sep :: ·)

@[simp] theorem separated_nil (sep : Char) (first : Bool) : separated sep first [] = [] := by
  cases first <;> rfl

theorem separated_cons (sep : Char) (first : Bool) (text : List Char) (texts : List (List Char)) :
    separated sep first (text :: texts) =
      (if first then [] else [sep]) ++ (text ++ separated sep false texts) := by
  have hFirst : separated sep true (text :: texts) = text ++ separated sep false texts := by
    change [sep].intercalate (text :: texts) = text ++ texts.flatMap (sep :: ·)
    induction texts generalizing text with
    | nil => rw [List.intercalate_singleton, List.flatMap_nil, List.append_nil]
    | cons next texts ih =>
        rw [List.intercalate_cons_cons, ih, List.flatMap_cons, List.append_assoc]
        rfl
  cases first with
  | true => exact hFirst
  | false => rfl

/-- A separated text has the separators and the characters of its parts, and no others. -/
theorem eq_or_mem_of_mem_separated {sep c : Char} {first : Bool} {texts : List (List Char)}
    (h : c ∈ separated sep first texts) : c = sep ∨ ∃ text ∈ texts, c ∈ text := by
  induction texts generalizing first with
  | nil => simp at h
  | cons text texts ih =>
      rw [separated_cons, List.mem_append, List.mem_append] at h
      rcases h with h | h | h
      · cases first <;> simp_all
      · exact Or.inr ⟨text, List.mem_cons_self .., h⟩
      · exact (ih h).imp_right fun ⟨other, hOther, hMem⟩ =>
          ⟨other, List.mem_cons_of_mem _ hOther, hMem⟩

namespace Decimal

section Written

variable {base : Nat} (hBase : 1 < base)

include hBase in
/-- A number is one digit, or it has a digit behind those of a smaller number. -/
theorem digit_induction {P : Nat → Prop} (single : ∀ n < base, P n)
    (append : ∀ n, base ≤ n → P (n / base) → P n) (n : Nat) : P n := by
  induction n using Nat.strong_induction_on with
  | _ n ih =>
      by_cases h : n < base
      · exact single n h
      · exact append n (not_lt.mp h) (ih _ (Nat.div_lt_self (by omega) hBase))

include hBase in
theorem exists_of_mem_toDigits {n : Nat} {c : Char} (h : c ∈ Nat.toDigits base n) :
    ∃ d < base, c = d.digitChar := by
  induction n using digit_induction hBase with
  | single n hn =>
      rw [Nat.toDigits_of_lt_base hn, List.mem_singleton] at h
      exact ⟨n, hn, h⟩
  | append n hn ih =>
      rw [Nat.toDigits_of_base_le hBase hn, List.mem_append, List.mem_singleton] at h
      rcases h with h | h
      · exact ih h
      · exact ⟨n % base, Nat.mod_lt _ (by omega), h⟩

include hBase in
/-- Only zero is written with a zero in front. -/
theorem eq_zero_of_head?_toDigits (hLetters : base ≤ 16) {n : Nat}
    (h : (Nat.toDigits base n).head? = some '0') : n = 0 := by
  induction n using digit_induction hBase with
  | single n hn =>
      have hZero : ∀ d < 16, d.digitChar = '0' → d = 0 := by decide
      rw [Nat.toDigits_of_lt_base hn, List.head?_singleton, Option.some.injEq] at h
      exact hZero n (by omega) h
  | append n hn ih =>
      rw [Nat.toDigits_of_base_le hBase hn, List.head?_append_of_ne_nil _ Nat.toDigits_ne_nil] at h
      have hPos : 0 < n / base := Nat.div_pos hn (by omega)
      exact absurd (ih h) hPos.ne'

end Written

/-- A digit that was written is read as its value. -/
theorem digitValue?_digitChar :
    ∀ base ≤ 16, ∀ d < base, digitValue? base d.digitChar = some d := by
  decide +kernel

section Read

variable {base : Nat} (hBase : 1 < base) (hLetters : base ≤ 16)

include hBase hLetters in
/-- The digits of a number have values in its base. -/
theorem isSome_digitValue?_of_mem {n : Nat} {c : Char} (h : c ∈ Nat.toDigits base n) :
    (digitValue? base c).isSome := by
  obtain ⟨d, hd, rfl⟩ := exists_of_mem_toDigits hBase h
  rw [digitValue?_digitChar base hLetters d hd]
  rfl

include hBase hLetters in
/-- The digits of a number add up to it. -/
theorem foldl_toDigits (n : Nat) :
    (Nat.toDigits base n).foldl (fun value c => value * base + (digitValue? base c).getD 0) 0 = n := by
  induction n using digit_induction hBase with
  | single n hn =>
      rw [Nat.toDigits_of_lt_base hn, List.foldl_cons, digitValue?_digitChar base hLetters n hn]
      simp
  | append n hn ih =>
      have hDigit := digitValue?_digitChar base hLetters (n % base) (Nat.mod_lt _ (by omega))
      rw [Nat.toDigits_of_base_le hBase hn, List.foldl_append, ih, List.foldl_cons, hDigit]
      exact Nat.div_add_mod' n base

/-- Digits can be read in two parts, the second one from the value of the first. -/
theorem readDigits_append (base largest value : Nat) (cs more : List Char) :
    readDigits base largest value (cs ++ more) =
      readDigits base largest value cs >>= fun value => readDigits base largest value more := by
  induction cs generalizing value with
  | nil => rfl
  | cons c rest ih =>
      rw [List.cons_append, readDigits, readDigits]
      split
      · rfl
      · split
        · exact ih _
        · rfl

include hBase hLetters in
/-- A number within the bound is within the bound after each of its digits. -/
theorem readDigits_toDigits {largest n : Nat} (h : n ≤ largest) :
    readDigits base largest 0 (Nat.toDigits base n) = .ok n := by
  induction n using digit_induction hBase with
  | single n hn =>
      rw [Nat.toDigits_of_lt_base hn, readDigits, digitValue?_digitChar base hLetters n hn]
      simp [h, readDigits]
  | append n hn ih =>
      have hFront : n / base ≤ largest := le_trans (Nat.div_le_self n base) h
      have hDigit := digitValue?_digitChar base hLetters (n % base) (Nat.mod_lt _ (by omega))
      rw [Nat.toDigits_of_base_le hBase hn, readDigits_append, ih hFront, ok_bind, readDigits,
        hDigit]
      simp [Nat.div_add_mod', h, readDigits]

end Read

theorem isDigit_of_mem_decimalDigits {n : Nat} {c : Char} (h : c ∈ decimalDigits n) : c.isDigit :=
  Nat.isDigit_of_mem_toDigits (by decide) (by decide) h

theorem decimalDigits_ne_nil (n : Nat) : decimalDigits n ≠ [] :=
  Nat.toDigits_ne_nil

/-- A text without a sign is read digit by digit. -/
theorem readUnsigned_eq_readDigits {base largest : Nat} {cs : List Char} (hSome : cs ≠ [])
    (hSign : '+' ∉ cs) : readUnsigned base largest cs = readDigits base largest 0 cs := by
  rw [readUnsigned.eq_def]
  split
  · exact absurd rfl hSome
  · simp at hSign
  · simp at hSign
  · rfl

/-- A number that is not too large is read back from its decimal digits. -/
theorem readUnsigned_decimalDigits {largest n : Nat} (h : n ≤ largest) :
    readUnsigned 10 largest (decimalDigits n) = .ok n := by
  have hSign : '+' ∉ decimalDigits n := fun hMem =>
    absurd (isDigit_of_mem_decimalDigits hMem) (by decide)
  rw [readUnsigned_eq_readDigits (decimalDigits_ne_nil n) hSign]
  exact readDigits_toDigits (by decide) (by decide) h

end Decimal

end FlowAudit
