import FlowAudit.Address.Text
import FlowAudit.Proofs.Digits
import FlowAudit.Proofs.Text.Blank
import Mathlib
/-!
Addresses are read back from their written form: four octets, eight groups, groups around a double
colon, and octets behind a fixed prefix.
-/
namespace FlowAudit.Address

open Decimal

/-- What follows a number is no further digit of it. -/
def NoDigitAhead (base : Nat) (cs : List Char) : Prop :=
  ∀ c ∈ cs.head?, digitValue? base c = none

theorem octetText_eq (octets : List Nat) :
    octetText octets = separated '.' true (octets.map (Nat.toDigits 10)) := rfl

theorem groupText_eq (groups : List Nat) :
    groupText groups = separated ':' true (groups.map (Nat.toDigits 16)) := rfl

theorem noDigitAhead_nil (base : Nat) : NoDigitAhead base [] := by
  intro c h
  cases h

theorem noDigitAhead_cons {base : Nat} {c : Char} (h : digitValue? base c = none)
    (cs : List Char) : NoDigitAhead base (c :: cs) := by
  intro d hd
  cases hd
  exact h

/-- Between separated texts the first separator ends a number, and behind the last text the
remainder does. -/
theorem noDigitAhead_separated {base : Nat} {sep : Char} (hSep : digitValue? base sep = none)
    (texts : List (List Char)) {rest : List Char} (hRest : NoDigitAhead base rest) :
    NoDigitAhead base (separated sep false texts ++ rest) := by
  cases texts with
  | nil => exact hRest
  | cons text texts => exact noDigitAhead_cons hSep _

section Number

variable {base most : Nat} {rest : List Char}

/-- Reading a number stops where its digits end. -/
theorem takeWhile_of_noDigitAhead (h : NoDigitAhead base rest) :
    rest.takeWhile (fun c => (digitValue? base c).isSome) = [] ∧
      rest.dropWhile (fun c => (digitValue? base c).isSome) = rest := by
  cases rest with
  | nil => exact ⟨rfl, rfl⟩
  | cons c cs =>
      have hNone := h c rfl
      rw [List.takeWhile_cons, List.dropWhile_cons, hNone]
      exact ⟨rfl, rfl⟩

theorem readNumber?_eq_none (h : NoDigitAhead base rest) : readNumber? base most rest = none := by
  rw [readNumber?, (takeWhile_of_noDigitAhead h).1]
  rfl

/-- A number is read back from its digits in front of a remainder that does not go on with
digits. -/
theorem readNumber?_toDigits (hBase : 1 < base) (hLetters : base ≤ 16) {n : Nat}
    (hLength : (Nat.toDigits base n).length ≤ most) (hRest : NoDigitAhead base rest) :
    readNumber? base most (Nat.toDigits base n ++ rest) = some (n, rest) := by
  have hDigits : ∀ c ∈ Nat.toDigits base n, (digitValue? base c).isSome := fun c =>
    isSome_digitValue?_of_mem hBase hLetters
  obtain ⟨hTake, hDrop⟩ := takeWhile_of_noDigitAhead hRest
  have hSome : ¬((Nat.toDigits base n).isEmpty ∨ most < (Nat.toDigits base n).length) := by
    simp [hLength]
  rw [readNumber?, List.takeWhile_append_of_pos hDigits, List.dropWhile_append_of_pos hDigits,
    hTake, hDrop, List.append_nil]
  simp only
  rw [if_neg hSome, foldl_toDigits hBase hLetters]

end Number

section Octets

/-- An octet has no leading zeros, so it is read back from its decimal digits. -/
theorem readOctet?_toDigits {octet : Nat} (hOctet : octet < 256) {rest : List Char}
    (hRest : NoDigitAhead 10 rest) :
    readOctet? (Nat.toDigits 10 octet ++ rest) = some (octet, rest) := by
  have hLength : (Nat.toDigits 10 octet).length ≤ 3 :=
    (Nat.length_toDigits_le_iff (by decide) (by decide)).mpr (by omega)
  have hZero : ¬((Nat.toDigits 10 octet ++ rest).head? = some '0' ∧
      (Nat.toDigits 10 octet ++ rest).length ≠ rest.length + 1) := by
    rintro ⟨hHead, hLong⟩
    rw [List.head?_append_of_ne_nil _ Nat.toDigits_ne_nil] at hHead
    rw [eq_zero_of_head?_toDigits (by decide) (by decide) hHead, Nat.toDigits_zero] at hLong
    exact hLong (Nat.add_comm 1 rest.length ▸ List.length_append)
  rw [readOctet?, readNumber?_toDigits (by decide) (by decide) hLength hRest]
  simp only
  rw [if_neg (by omega), if_neg hZero]

theorem readOctet?_eq_none {cs : List Char} (h : NoDigitAhead 10 cs) : readOctet? cs = none := by
  rw [readOctet?, readNumber?_eq_none h]

/-- A point before each octet but the first. -/
theorem readOctets?_succ (count : Nat) (first : Bool) (cs : List Char) :
    readOctets? (count + 1) first ((if first then [] else ['.']) ++ cs) =
      (readOctet? cs).bind fun (octet, rest) =>
        (readOctets? count false rest).map fun (octets, rest) => (octet :: octets, rest) := by
  cases first <;>
  · rw [readOctets?.eq_def]
    simp only [if_true, Bool.false_eq_true, if_false, List.nil_append, List.cons_append,
      Option.bind_eq_bind, Option.bind_some]
    refine congrArg (Option.bind (readOctet? cs)) (funext fun read => ?_)
    cases readOctets? count false read.2 <;> rfl

/-- Octets are read back one after the other. The separator in front of each of them is missing at
the first one only. -/
theorem readOctets?_separated {octets : List Nat} (hOctets : ∀ o ∈ octets, o < 256)
    {rest : List Char} (hRest : NoDigitAhead 10 rest) (first : Bool) :
    readOctets? octets.length first (separated '.' first (octets.map (Nat.toDigits 10)) ++ rest) =
      some (octets, rest) := by
  induction octets generalizing first with
  | nil =>
      rw [List.map_nil, separated_nil]
      rfl
  | cons octet octets ih =>
      obtain ⟨hHead, hTail⟩ := List.forall_mem_cons.mp hOctets
      have hStop := noDigitAhead_separated (show digitValue? 10 '.' = none by decide)
        (octets.map (Nat.toDigits 10)) hRest
      rw [List.map_cons, separated_cons, List.append_assoc, List.append_assoc, List.length_cons,
        readOctets?_succ, readOctet?_toDigits hHead hStop, Option.bind_some]
      simp only
      rw [ih hTail, Option.map_some]

/-- Where no decimal digit comes first there are no octets. -/
theorem readOctets?_eq_none {cs : List Char} (h : NoDigitAhead 10 cs) :
    readOctets? 4 true cs = none := by
  refine (readOctets?_succ 3 true cs).trans ?_
  rw [readOctet?_eq_none h]
  rfl

theorem suffix_of_readNumber? {base most n : Nat} {cs rest : List Char}
    (h : readNumber? base most cs = some (n, rest)) : rest <:+ cs := by
  rw [readNumber?] at h
  simp only at h
  split at h
  · cases h
  · cases h
    exact List.dropWhile_suffix _

/-- Reading an octet only takes characters from the front. -/
theorem suffix_of_readOctet? {octet : Nat} {cs rest : List Char}
    (h : readOctet? cs = some (octet, rest)) : rest <:+ cs := by
  rw [readOctet?] at h
  split at h
  · cases h
  · next hNumber =>
      split at h
      · cases h
      · split at h
        · cases h
        · cases h
          exact suffix_of_readNumber? hNumber

/-- Without any point there is at most one octet. -/
theorem readOctets?_eq_none_of_notMem {cs : List Char} (h : '.' ∉ cs) :
    readOctets? 4 true cs = none := by
  refine (readOctets?_succ 3 true cs).trans (Option.bind_eq_none_iff.mpr ?_)
  rintro ⟨octet, rest⟩ hOctet
  have hRest : '.' ∉ rest := fun hMem => h ((suffix_of_readOctet? hOctet).subset hMem)
  cases rest with
  | nil => rfl
  | cons c rest =>
      have hNe : c ≠ '.' := fun hEq => hRest (hEq ▸ List.mem_cons_self ..)
      simp [readOctets?, hNe]

end Octets

section Groups

/-- A list of groups ends with the text or in front of a double colon. -/
def GroupsEnd (cs : List Char) : Prop :=
  cs = [] ∨ ∃ more, cs = ':' :: ':' :: more

theorem GroupsEnd.noDigitAhead {cs : List Char} (h : GroupsEnd cs) (base : Nat)
    (hColon : digitValue? base ':' = none) : NoDigitAhead base cs := by
  rcases h with rfl | ⟨more, rfl⟩
  · exact noDigitAhead_nil base
  · exact noDigitAhead_cons hColon _

/-- A colon before each group but the first, where no octets begin. -/
theorem readGroups_succ {room : Nat} {body : List Char} (h : readOctets? 4 true body = none)
    (first : Bool) :
    readGroups (room + 1) first ((if first then [] else [':']) ++ body) =
      (readNumber? 16 4 body).elim ⟨[], false, (if first then [] else [':']) ++ body⟩
        fun (value, rest) => { readGroups room false rest with
          values := value :: (readGroups room false rest).values } := by
  have hOctets : (if room = 0 then none else readOctets? 4 true body) = none := by
    rw [h, ite_self]
  cases first <;>
  · rw [readGroups.eq_def]
    simp only [if_true, Bool.false_eq_true, if_false, List.nil_append, List.cons_append, hOctets]
    cases readNumber? 16 4 body <;> rfl

/-- Nothing is read where no group begins. -/
theorem readGroups_of_groupsEnd {cs : List Char} (h : GroupsEnd cs) (room : Nat) (first : Bool) :
    readGroups room first cs = ⟨[], false, cs⟩ := by
  have hStop : ∀ body, NoDigitAhead 10 body → NoDigitAhead 16 body → ∀ first,
      readGroups (room - 1 + 1) first ((if first then [] else [':']) ++ body) =
        ⟨[], false, (if first then [] else [':']) ++ body⟩ := by
    intro body hDecimal hHexadecimal first
    rw [readGroups_succ (readOctets?_eq_none hDecimal), readNumber?_eq_none hHexadecimal,
      Option.elim_none]
  cases room with
  | zero => rfl
  | succ room =>
      cases first with
      | true => exact hStop cs (h.noDigitAhead 10 (by decide)) (h.noDigitAhead 16 (by decide)) true
      | false =>
          rcases h with rfl | ⟨more, rfl⟩
          · rfl
          · exact hStop (':' :: more) (noDigitAhead_cons (by decide) _)
              (noDigitAhead_cons (by decide) _) false

theorem notMem_groups (groups : List Nat) (first : Bool) :
    '.' ∉ separated ':' first (groups.map (Nat.toDigits 16)) := by
  have hDigit : ∀ d < 16, '.' ≠ d.digitChar := by decide
  intro hMem
  rcases eq_or_mem_of_mem_separated hMem with hEq | ⟨text, hText, hMem⟩
  · exact absurd hEq (by decide)
  · obtain ⟨g, _, rfl⟩ := List.mem_map.mp hText
    obtain ⟨d, hd, hEq⟩ := exists_of_mem_toDigits (by decide) hMem
    exact hDigit d hd hEq

/-- Groups are read back as long as there is room for them. A remainder without points cannot be
taken for an address of the other family. -/
theorem readGroups_separated {groups : List Nat} (hGroups : ∀ g ∈ groups, g < 65536)
    {rest : List Char} (hEnd : GroupsEnd rest) (hPoint : '.' ∉ rest) {room : Nat}
    (hRoom : groups.length ≤ room) (first : Bool) :
    readGroups room first (separated ':' first (groups.map (Nat.toDigits 16)) ++ rest) =
      ⟨groups, false, rest⟩ := by
  induction groups generalizing room first with
  | nil =>
      rw [List.map_nil, separated_nil, List.nil_append]
      exact readGroups_of_groupsEnd hEnd room first
  | cons g groups ih =>
      obtain ⟨hHead, hTail⟩ := List.forall_mem_cons.mp hGroups
      obtain ⟨room, rfl⟩ := Nat.exists_eq_add_one_of_ne_zero (Nat.ne_zero_of_lt hRoom)
      have hLength : (Nat.toDigits 16 g).length ≤ 4 :=
        (Nat.length_toDigits_le_iff (by decide) (by decide)).mpr (by omega)
      have hStop := noDigitAhead_separated (show digitValue? 16 ':' = none by decide)
        (groups.map (Nat.toDigits 16)) (hEnd.noDigitAhead 16 (by decide))
      have hNoPoint : '.' ∉ Nat.toDigits 16 g ++
          (separated ':' false (groups.map (Nat.toDigits 16)) ++ rest) := by
        have hGroup := notMem_groups [g] true
        rw [List.map_singleton, separated_cons, separated_nil] at hGroup
        simpa [notMem_groups groups false, hPoint] using hGroup
      rw [List.map_cons, separated_cons, List.append_assoc, List.append_assoc,
        readGroups_succ (readOctets?_eq_none_of_notMem hNoPoint),
        readNumber?_toDigits (by decide) (by decide) hLength hStop]
      simp only [Option.elim_some, ih hTail (Nat.le_of_succ_le_succ hRoom) false]

/-- Eight groups without a double colon leave nothing behind. -/
theorem readEightGroups?_groupText {groups : List Nat} (hGroups : ∀ g ∈ groups, g < 65536)
    (hLength : groups.length = 8) : readEightGroups? (groupText groups) = some (groups, []) := by
  have hRead := readGroups_separated hGroups (Or.inl rfl) List.not_mem_nil hLength.le true
  rw [List.append_nil, ← groupText_eq] at hRead
  rw [readEightGroups?]
  simp only [hRead]
  rw [if_pos hLength]

/-- A double colon stands for all the groups that are left out. -/
theorem readEightGroups?_doubleColon {front back : List Nat} (hFront : ∀ g ∈ front, g < 65536)
    (hBack : ∀ g ∈ back, g < 65536) (hLength : front.length + back.length ≤ 7) :
    readEightGroups? (groupText front ++ [':', ':'] ++ groupText back) =
      some (front ++ List.replicate (8 - front.length - back.length) 0 ++ back, []) := by
  have hPoint : '.' ∉ ':' :: ':' :: groupText back := by
    have hBackPoint := notMem_groups back true
    rw [← groupText_eq] at hBackPoint
    simp [hBackPoint]
  have hReadFront := readGroups_separated hFront (Or.inr ⟨groupText back, rfl⟩) hPoint
    (show front.length ≤ 8 by omega) true
  have hReadBack := readGroups_separated hBack (Or.inl rfl) List.not_mem_nil
    (show back.length ≤ 7 - front.length by omega) true
  rw [← groupText_eq] at hReadFront
  rw [List.append_nil, ← groupText_eq] at hReadBack
  rw [readEightGroups?, List.append_assoc]
  simp only [List.cons_append, List.nil_append, hReadFront, hReadBack]
  rw [if_neg (by omega)]
  rfl

/-- Four octets behind the prefix stand for the last two groups. -/
theorem readEightGroups?_embedded {octets : List Nat} (hOctets : ∀ o ∈ octets, o < 256)
    (hLength : octets.length = 4) :
    readEightGroups? ("::ffff:".toList ++ octetText octets) =
      some ([0, 0, 0, 0, 0, 65535, joinGroups 256 (octets.take 2), joinGroups 256 (octets.drop 2)],
        []) := by
  have hReadOctets := readOctets?_separated hOctets (noDigitAhead_nil 10) true
  rw [hLength, List.append_nil, ← octetText_eq] at hReadOctets
  have hFront : readGroups 8 true ("::ffff:".toList ++ octetText octets) =
      ⟨[], false, "::ffff:".toList ++ octetText octets⟩ :=
    readGroups_of_groupsEnd (Or.inr ⟨_, rfl⟩) 8 true
  have hGroup : readNumber? 16 4 ("ffff:".toList ++ octetText octets) =
      some (65535, ':' :: octetText octets) :=
    readNumber?_toDigits (n := 65535) (by decide) (by decide) (by decide)
      (noDigitAhead_cons (by decide) _)
  have hLast : readGroups 6 false (':' :: octetText octets) =
      ⟨[joinGroups 256 (octets.take 2), joinGroups 256 (octets.drop 2)], true, []⟩ := by
    rw [readGroups.eq_def]
    simp [hReadOctets]
  have hBack : readGroups 7 true ("ffff:".toList ++ octetText octets) =
      ⟨[65535, joinGroups 256 (octets.take 2), joinGroups 256 (octets.drop 2)], true, []⟩ := by
    have hNone : readOctets? 4 true ("ffff:".toList ++ octetText octets) = none :=
      readOctets?_eq_none (noDigitAhead_cons (by decide) _)
    refine (readGroups_succ hNone true).trans ?_
    simp only [hGroup, Option.elim_some, hLast]
  have hSplit : "::ffff:".toList ++ octetText octets =
      ':' :: ':' :: ("ffff:".toList ++ octetText octets) := rfl
  rw [readEightGroups?, hFront, hSplit]
  simp only [List.length_nil, Nat.sub_zero, hBack]
  rfl

end Groups

section Split

variable {base : Nat}

theorem length_splitGroups (base count n : Nat) : (splitGroups base count n).length = count := by
  induction count generalizing n with
  | zero => rfl
  | succ count ih => rw [splitGroups, List.length_append, ih, List.length_singleton]

/-- Each group is a digit of the base. -/
theorem lt_of_mem_splitGroups (hBase : 0 < base) {count n : Nat} :
    ∀ g ∈ splitGroups base count n, g < base := by
  induction count generalizing n with
  | zero => simp [splitGroups]
  | succ count ih =>
      intro g h
      rw [splitGroups, List.mem_append, List.mem_singleton] at h
      rcases h with h | rfl
      · exact ih g h
      · exact Nat.mod_lt n hBase

/-- Splitting keeps the lowest digits of a number. -/
theorem joinGroups_splitGroups (base count n : Nat) :
    joinGroups base (splitGroups base count n) = n % base ^ count := by
  induction count generalizing n with
  | zero => simp [splitGroups, joinGroups, Nat.mod_one]
  | succ count ih =>
      have hJoin : joinGroups base (splitGroups base count (n / base) ++ [n % base]) =
          joinGroups base (splitGroups base count (n / base)) * base + n % base := by
        rw [joinGroups, List.foldl_append]
        rfl
      rw [splitGroups, hJoin, ih, Nat.pow_succ', Nat.mod_mul, Nat.add_comm, Nat.mul_comm]

/-- The run of zeros that is left out stands between the groups that are written. -/
theorem longestZeros_split (groups : List Nat) :
    ∃ front back, groups = front ++ List.replicate (longestZeros groups).2 0 ++ back ∧
      front.length = (longestZeros groups).1 := by
  induction groups with
  | nil => exact ⟨[], [], rfl, rfl⟩
  | cons g rest ih =>
      obtain ⟨front, back, hSplit, hLength⟩ := ih
      rw [longestZeros]
      split
      · have hZeros : (g :: rest).takeWhile (· == 0) =
            List.replicate ((g :: rest).takeWhile (· == 0)).length 0 :=
          List.eq_replicate_iff.mpr ⟨rfl, fun z hz => by simpa using List.mem_takeWhile_imp hz⟩
        refine ⟨[], (g :: rest).dropWhile (· == 0), ?_, rfl⟩
        rw [List.nil_append, ← hZeros, List.takeWhile_append_dropWhile]
      · exact ⟨g :: front, back, by rw [List.cons_append, List.cons_append, ← hSplit],
          by rw [List.length_cons, hLength]⟩

end Split

section Whole

theorem readShort?_eq_none {cs : List Char} (h : readOctets? 4 true cs = none) :
    readShort? cs = none := by
  rw [readShort?, h]

/-- Four octets make the address they were split from. -/
theorem read?_octetText {n : Nat} (h : n < 2 ^ 32) :
    read? (octetText (splitGroups 256 4 n)) = some (ofNat .v4 n) := by
  have hOctets : ∀ o ∈ splitGroups 256 4 n, o < 256 := lt_of_mem_splitGroups (by decide)
  have hRead := readOctets?_separated hOctets (noDigitAhead_nil 10) true
  rw [length_splitGroups, List.append_nil, ← octetText_eq] at hRead
  rw [read?, readShort?, hRead]
  simp only
  rw [joinGroups_splitGroups, Nat.mod_eq_of_lt (by omega), Option.some_or]

theorem readLong?_of_groups {cs : List Char} {groups : List Nat}
    (h : readEightGroups? cs = some (groups, [])) :
    readLong? cs = some (ofNat .v6 (joinGroups 65536 groups)) := by
  rw [readLong?, h]

/-- Behind five zero groups and one of ones, the last two groups can be written as octets. -/
theorem readLong?_embedded {n : Nat} (h : n >>> 32 = 0xffff) :
    readLong? ("::ffff:".toList ++ octetText (splitGroups 256 4 n)) = some (ofNat .v6 n) := by
  have hRead := readEightGroups?_embedded (lt_of_mem_splitGroups (n := n) (by decide))
    (length_splitGroups 256 4 n)
  rw [Nat.shiftRight_eq_div_pow] at h
  have hJoin : joinGroups 65536 [0, 0, 0, 0, 0, 65535,
      joinGroups 256 ((splitGroups 256 4 n).take 2),
      joinGroups 256 ((splitGroups 256 4 n).drop 2)] = n := by
    simp only [splitGroups, joinGroups, List.nil_append, List.cons_append, List.take_succ_cons,
      List.take_zero, List.drop_succ_cons, List.drop_zero, List.foldl_cons, List.foldl_nil]
    omega
  rw [readLong?_of_groups hRead, hJoin]

section Groups

variable {n : Nat}

theorem joinGroups_long (h : n < 2 ^ 128) : joinGroups 65536 (splitGroups 65536 8 n) = n := by
  rw [joinGroups_splitGroups, Nat.mod_eq_of_lt (by omega)]

theorem readLong?_groupText (h : n < 2 ^ 128) :
    readLong? (groupText (splitGroups 65536 8 n)) = some (ofNat .v6 n) := by
  rw [readLong?_of_groups (readEightGroups?_groupText (lt_of_mem_splitGroups (by decide))
    (length_splitGroups 65536 8 n)), joinGroups_long h]

/-- The double colon stands for the longest run of zero groups. Reading puts as many zeros in its
place as there are groups missing. -/
theorem readLong?_doubleColon (h : n < 2 ^ 128)
    (hRun : 1 < (longestZeros (splitGroups 65536 8 n)).2) :
    let zeros := longestZeros (splitGroups 65536 8 n)
    readLong? (groupText ((splitGroups 65536 8 n).take zeros.1) ++ [':', ':'] ++
      groupText ((splitGroups 65536 8 n).drop (zeros.1 + zeros.2))) = some (ofNat .v6 n) := by
  intro zeros
  have hGroups : ∀ g ∈ splitGroups 65536 8 n, g < 65536 := lt_of_mem_splitGroups (by decide)
  have hLength := length_splitGroups 65536 8 n
  have hJoin := joinGroups_long h
  obtain ⟨front, back, hSplit, hStart⟩ := longestZeros_split (splitGroups 65536 8 n)
  change 1 < zeros.2 at hRun
  change _ = front ++ List.replicate zeros.2 0 ++ back at hSplit
  change front.length = zeros.1 at hStart
  rw [hSplit] at hGroups hLength hJoin ⊢
  simp only [List.mem_append] at hGroups
  simp only [List.length_append, List.length_replicate] at hLength
  have hFront : (front ++ List.replicate zeros.2 0 ++ back).take zeros.1 = front := by
    rw [List.append_assoc, List.take_left' hStart]
  have hBack : (front ++ List.replicate zeros.2 0 ++ back).drop (zeros.1 + zeros.2) = back :=
    List.drop_left' (by simp [hStart])
  have hRead := readEightGroups?_doubleColon (fun g hg => hGroups g (Or.inl (Or.inl hg)))
    (fun g hg => hGroups g (Or.inr hg)) (show front.length + back.length ≤ 7 by omega)
  have hZeros : 8 - front.length - back.length = zeros.2 := by omega
  rw [hZeros] at hRead
  rw [hFront, hBack, readLong?_of_groups hRead, hJoin]

end Groups

theorem ofNat_number (a : Address) : ofNat a.family a.number = a := by
  obtain ⟨family, n, hn⟩ := a
  simp only [ofNat, Nat.mod_eq_of_lt hn]

/-- Writing an address and reading it again gives the same address. -/
theorem read?_text (a : Address) : read? a.text = some a := by
  obtain ⟨family, n, hn⟩ := a
  refine Eq.trans ?_ (congrArg some (ofNat_number ⟨family, n, hn⟩))
  cases family with
  | v4 => exact read?_octetText hn
  | v6 =>
      rw [read?, text]
      simp only
      split
      · next hEmbedded =>
          have hShort : readOctets? 4 true ("::ffff:".toList ++ octetText (splitGroups 256 4 n)) =
              none := readOctets?_eq_none (noDigitAhead_cons (by decide) _)
          rw [readShort?_eq_none hShort, Option.none_or, readLong?_embedded hEmbedded]
      · have hFront : ∀ groups, '.' ∉ groupText groups := fun groups => notMem_groups groups true
        split
        · next hRun =>
            rw [readShort?_eq_none (readOctets?_eq_none_of_notMem (by simp [hFront])),
              Option.none_or, readLong?_doubleColon hn hRun]
        · rw [readShort?_eq_none (readOctets?_eq_none_of_notMem (hFront _)), Option.none_or,
            readLong?_groupText hn]

end Whole

section Characters

/-- The characters of written addresses. -/
def alphabet : List Char :=
  ['0', '1', '2', '3', '4', '5', '6', '7', '8', '9', 'a', 'b', 'c', 'd', 'e', 'f', '.', ':']

theorem mem_alphabet_of_separated {sep c : Char} {base : Nat} (hSep : sep ∈ alphabet)
    (hBase : 1 < base) (hLetters : base ≤ 16) {numbers : List Nat}
    (h : c ∈ separated sep true (numbers.map (Nat.toDigits base))) : c ∈ alphabet := by
  have hDigit : ∀ d < 16, d.digitChar ∈ alphabet := by decide
  rcases eq_or_mem_of_mem_separated h with rfl | ⟨text, hText, hMem⟩
  · exact hSep
  · obtain ⟨n, _, rfl⟩ := List.mem_map.mp hText
    obtain ⟨d, hd, rfl⟩ := exists_of_mem_toDigits hBase hMem
    exact hDigit d (by omega)

/-- An address is written in digits, points and colons only. -/
theorem mem_alphabet_of_mem_text {a : Address} {c : Char} (h : c ∈ a.text) : c ∈ alphabet := by
  have hOctets : ∀ octets, c ∈ octetText octets → c ∈ alphabet := fun octets hMem =>
    mem_alphabet_of_separated (by decide) (by decide) (by decide) (octetText_eq octets ▸ hMem)
  have hGroups : ∀ groups, c ∈ groupText groups → c ∈ alphabet := fun groups hMem =>
    mem_alphabet_of_separated (by decide) (by decide) (by decide) (groupText_eq groups ▸ hMem)
  have hColons : [':', ':'] ⊆ alphabet := by simp [alphabet]
  have hPrefix : "::ffff:".toList ⊆ alphabet := by simp [alphabet]
  obtain ⟨family, n, hn⟩ := a
  cases family with
  | v4 => exact hOctets _ h
  | v6 =>
      rw [text] at h
      simp only at h
      split at h
      · exact (List.mem_append.mp h).elim (hPrefix ·) (hOctets _)
      · split at h
        · rcases List.mem_append.mp h with h | h
          · exact (List.mem_append.mp h).elim (hGroups _) (hColons ·)
          · exact hGroups _ h
        · exact hGroups _ h

theorem isBlank_of_mem_alphabet : ∀ c ∈ alphabet, Text.isBlank c = false := by
  simp [alphabet, Text.isBlank]

/-- An address has no blanks at its ends, so it is also read where texts are trimmed. -/
theorem parse?_toString (a : Address) : parse? (toString a) = some a := by
  change read? (Text.trim (String.ofList a.text).toList) = some a
  rw [String.toList_ofList,
    Text.trim_of_forall fun c hc => isBlank_of_mem_alphabet c (mem_alphabet_of_mem_text hc),
    read?_text]

end Characters

end FlowAudit.Address
