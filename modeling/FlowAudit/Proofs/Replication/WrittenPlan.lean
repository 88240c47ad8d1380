import FlowAudit.Proofs.Text.Blank
import FlowAudit.Proofs.Traversal
import FlowAudit.Replication.Plan
import Mathlib
/-!
Plans as they are written. The digits of a modifier denote a number of any size, and reading a plan
keeps each number modulo `2 ^ 32`, whether it is reduced after each digit or at the end. Units that
are left out because all of their loops are ignored are active in no loop that is replayed.
-/
namespace FlowAudit

namespace Modifier

/-- Reducing after each digit has the same result as reducing the whole number. -/
theorem foldl_appendDigit (digits : List Char) (value : Nat) :
    digits.foldl appendDigit (value % UInt32.size) =
      digits.foldl (fun value c => 10 * value + (c.toNat - '0'.toNat)) value % UInt32.size := by
  induction digits generalizing value with
  | nil => rfl
  | cons c digits ih =>
      have hStep : appendDigit (value % UInt32.size) c =
          (10 * value + (c.toNat - '0'.toNat)) % UInt32.size := by
        rw [appendDigit, Nat.add_mod, Nat.mod_mul_mod, ← Nat.add_mod, Nat.mul_comm]
      rw [List.foldl_cons, hStep, ih, List.foldl_cons]

/-- Reading digits with wrap-around gives the written number modulo the size of the word. -/
theorem offset_ofDecimal (text : List Char) :
    (ofDecimal text).offset.toNat =
      Decimal.natOfDigits (text.filter Char.isDigit) % 2 ^ 32 := by
  have hFold := foldl_appendDigit (text.filter Char.isDigit) 0
  rw [Nat.zero_mod] at hFold
  rw [ofDecimal, hFold, UInt32.toNat_ofNat', Decimal.natOfDigits]
  exact Nat.mod_mod _ _

/-- The names of the operations have no digits. -/
theorem filter_isDigit_afterOperation {cs rest : List Char} (h : afterOperation? cs = some rest) :
    rest.filter Char.isDigit = cs.filter Char.isDigit := by
  obtain ⟨operation, hOperation, hRest⟩ := List.exists_of_findSome?_eq_some h
  have hName : operation.toList.filter Char.isDigit = [] := by
    rcases List.mem_cons.mp hOperation with rfl | hOperation
    · decide
    · rw [List.mem_singleton.mp hOperation]
      decide
  split at hRest
  · next hPrefix =>
      obtain ⟨tail, rfl⟩ := List.isPrefixOf_iff_prefix.mp hPrefix
      cases hRest
      rw [← String.length_toList, List.drop_left, List.filter_append, hName, List.nil_append]
  · cases hRest

/-- A modifier has a single number in it, so all its digits are those of that number. -/
theorem offset_of_read {text : List Char} {m : Modifier} (h : read? text = some m) :
    m.offset.toNat = Decimal.natOfDigits (text.filter Char.isDigit) % 2 ^ 32 := by
  rw [read?] at h
  obtain ⟨rest, hRest, h⟩ := Option.bind_eq_some_iff.mp h
  split at h
  · cases h
  · next hLast =>
      obtain ⟨front, rfl⟩ := List.getLast?_eq_some_iff.mp (not_not.mp hLast)
      have hDigits : (Text.trim (front ++ [')']).dropLast).filter Char.isDigit =
          text.filter Char.isDigit := by
        rw [List.dropLast_concat, Text.filter_isDigit_trim, ← Text.filter_isDigit_trim text,
          ← filter_isDigit_afterOperation hRest, List.filter_append]
        exact (List.append_nil _).symm
      simp only at h
      split at h
      · cases h
      · cases h
        rw [offset_ofDecimal, hDigits]

/-- The number that the digits of a field denote, of any size. A field that is absent or has no
digits denotes zero. -/
def written : Option Json → Nat
  | some (.string s) => Decimal.natOfDigits (s.toList.filter Char.isDigit)
  | _ => 0

/-- The offset of a field is its written number, reduced. This includes the fields that are
absent. -/
theorem offset_of_parse {field : String} {json : Json} {m : Option Modifier}
    (h : parse field json = .ok m) : (offsetOf m).toNat = written (some json) % 2 ^ 32 := by
  cases json with
  | null =>
      cases h
      rfl
  | string s =>
      rw [parse] at h
      split at h
      · next hNone =>
          cases h
          have hDigits : s.toList.filter Char.isDigit = [] := by
            have hTrim : Text.trim s.toList = "None".toList := by
              rw [← hNone, Text.trimmed, String.toList_ofList]
            rw [← Text.filter_isDigit_trim, hTrim]
            decide
          rw [written, hDigits]
          rfl
      · split at h
        · next m hRead =>
            cases h
            exact offset_of_read hRead
        · cases h
  | bool _ => cases h
  | number _ => cases h
  | array _ => cases h
  | object _ => cases h

end Modifier

theorem mem_insertLoop {n m : UInt32} {loops : List UInt32} :
    m ∈ insertLoop n loops ↔ m = n ∨ m ∈ loops := by
  induction loops with
  | nil => simp [insertLoop]
  | cons first rest ih =>
      rw [insertLoop]
      split
      · exact List.mem_cons
      · split
        · next hSame => simp [hSame]
        · rw [List.mem_cons, ih, List.mem_cons, or_left_comm]

/-- A set of loops has the members of the list. -/
theorem mem_loopSet {m : UInt32} {loops : List UInt32} : m ∈ loopSet loops ↔ m ∈ loops := by
  rw [loopSet]
  induction loops with
  | nil => rfl
  | cons n rest ih => rw [List.foldr_cons, mem_insertLoop, ih, List.mem_cons]

/-- A unit with the numbers that the plan writes, of any size. -/
structure WrittenUnit where
  source : Nat
  destination : Nat
  loops : LoopSelection

/-- The members of a section of a plan. -/
def writtenMembers : Json → List (String × Json)
  | .object members => members
  | _ => []

/-- A section as a unit. Without a selection it is active in all loops. -/
def WrittenUnit.ofMembers (members : List (String × Json)) : WrittenUnit where
  source := Modifier.written (members.lookup "srcip")
  destination := Modifier.written (members.lookup "dstip")
  loops := match LoopSelection.parse ((members.lookup "loopOnly").getD .null) with
    | .ok loops => loops
    | .error _ => .all

/-- The unit that changes nothing. -/
def WrittenUnit.unchanged : WrittenUnit :=
  ⟨0, 0, .all⟩

/-- The units of a list of sections. No sections at all stand for one unit that changes nothing. -/
def writtenSections : Option Json → List WrittenUnit
  | some (.array (item :: items)) =>
    (item :: items).map fun item => WrittenUnit.ofMembers (writtenMembers item)
  | _ => [.unchanged]

/-- The units that a plan writes, ignored ones included. -/
def Plan.writtenUnits (json : Json) : List WrittenUnit :=
  writtenSections ((writtenMembers json.canonical).lookup "units")

/-- The numbers that grow with the loop. -/
def Plan.writtenPerLoop (json : Json) : WrittenUnit :=
  .ofMembers (writtenMembers (((writtenMembers json.canonical).lookup "loop").getD .null))

/-- A unit has the written numbers modulo `2 ^ 32`. -/
structure ReplayUnit.Reduces (u : ReplayUnit) (w : WrittenUnit) : Prop where
  source : (Modifier.offsetOf u.source).toNat = w.source % 2 ^ 32
  destination : (Modifier.offsetOf u.destination).toNat = w.destination % 2 ^ 32

theorem ReplayUnit.reduces_unchanged : ReplayUnit.unchanged.Reduces .unchanged :=
  ⟨rfl, rfl⟩

namespace Plan

/-- A field that is absent is read like one that holds nothing. -/
theorem readModifiers_eq (members : List (String × Json)) (loops : LoopSelection) :
    readModifiers members loops =
      (members.lookup "srcip").elim (.ok none) (Modifier.parse "srcip") >>= fun source =>
      (members.lookup "dstip").elim (.ok none) (Modifier.parse "dstip") >>= fun destination =>
        .ok ⟨source, destination, loops⟩ := by
  rw [readModifiers]
  beta_reduce
  cases members.lookup "srcip" <;> cases members.lookup "dstip" <;> rfl

/-- A unit that is read has the offsets and the loops of its section. -/
theorem reduces_of_readModifiers {members : List (String × Json)} {loops : LoopSelection}
    {u : ReplayUnit} (h : readModifiers members loops = .ok u) :
    u.loops = loops ∧ u.Reduces (.ofMembers members) := by
  have hField : ∀ name value? m, value?.elim (.ok none) (Modifier.parse name) = Except.ok m →
      (Modifier.offsetOf m).toNat = Modifier.written value? % 2 ^ 32 := by
    intro name value? m hm
    cases value? with
    | none =>
        cases hm
        rfl
    | some value => exact Modifier.offset_of_parse hm
  rw [readModifiers_eq] at h
  obtain ⟨source, hSource, h⟩ := bind_eq_ok_iff.mp h
  obtain ⟨destination, hDestination, h⟩ := bind_eq_ok_iff.mp h
  cases h
  exact ⟨rfl, hField _ _ _ hSource, hField _ _ _ hDestination⟩

/-- No selection is read like the selection of all loops. -/
theorem readUnit_object (ignored : List UInt32) (members : List (String × Json)) :
    readUnit ignored (.object members) =
      LoopSelection.parse ((members.lookup "loopOnly").getD .null) >>= fun loops =>
        if loops.isWithin ignored then .ok none
        else readModifiers members loops >>= fun u => .ok (some u) := by
  rw [readUnit, sectionMembers, ok_bind]
  cases members.lookup "loopOnly" <;> rfl

/-- A section is left out only if all of its loops are ignored. -/
theorem readUnit_eq_ok {ignored : List UInt32} {json : Json} {unit? : Option ReplayUnit}
    (h : readUnit ignored json = .ok unit?) :
    let w := WrittenUnit.ofMembers (writtenMembers json)
    (unit? = none ∧ w.loops.isWithin ignored) ∨
      ∃ u, unit? = some u ∧ u.loops = w.loops ∧ u.Reduces w := by
  cases json with
  | object members =>
      rw [readUnit_object] at h
      obtain ⟨loops, hLoops, h⟩ := bind_eq_ok_iff.mp h
      have hWritten : (WrittenUnit.ofMembers members).loops = loops := by
        simp only [WrittenUnit.ofMembers, hLoops]
      split at h
      · next hWithin =>
          cases h
          exact Or.inl ⟨rfl, hWritten ▸ hWithin⟩
      · obtain ⟨u, hUnit, h⟩ := bind_eq_ok_iff.mp h
        cases h
        obtain ⟨hSame, hReduces⟩ := reduces_of_readModifiers hUnit
        exact Or.inr ⟨u, rfl, hSame.trans hWritten.symm, hReduces⟩
  | null => cases h
  | bool _ => cases h
  | number _ => cases h
  | string _ => cases h
  | array _ => cases h

/-- A selection within the ignored loops holds no other loop. -/
theorem not_contains_of_isWithin {loops : LoopSelection} {ignored : List UInt32}
    (h : loops.isWithin ignored) {n : UInt32} (hn : n ∉ ignored) : loops.contains n = false := by
  cases loops with
  | all => cases h
  | only loops =>
      rw [← Bool.not_eq_true]
      intro hMem
      have hAll := List.all_eq_true.mp h n (List.contains_iff_mem.mp hMem)
      exact hn (List.contains_iff_mem.mp hAll)

/-- The units of a loop that is not ignored, in the order in which they are written. -/
def ActiveUnits (n : UInt32) (units : List ReplayUnit) (written : List WrittenUnit) : Prop :=
  List.Forall₂ ReplayUnit.Reduces (units.filter fun u => u.loops.contains n)
    (written.filter fun w => w.loops.contains n)

/-- Sections that are ignored as a whole have no unit, and none is missed in a loop that is
replayed. -/
theorem activeUnits_of_forall₂ {ignored : List UInt32} {n : UInt32} (hn : n ∉ ignored)
    {items : List Json} {units? : List (Option ReplayUnit)}
    (h : List.Forall₂ (fun item unit? => readUnit ignored item = .ok unit?) items units?) :
    ActiveUnits n (units?.filterMap id)
      (items.map fun item => WrittenUnit.ofMembers (writtenMembers item)) := by
  induction h with
  | nil => exact List.Forall₂.nil
  | cons hHead _ ih =>
      rw [ActiveUnits, List.map_cons, List.filter_cons]
      rcases readUnit_eq_ok hHead with ⟨rfl, hWithin⟩ | ⟨u, rfl, hLoops, hReduces⟩
      · have hInactive := not_contains_of_isWithin hWithin hn
        rw [if_neg (by simp [hInactive]), List.filterMap_cons_none rfl]
        exact ih
      · rw [List.filterMap_cons, id, List.filter_cons, hLoops]
        split
        · exact List.Forall₂.cons hReduces ih
        · exact ih

theorem activeUnits_unchanged (n : UInt32) : ActiveUnits n [.unchanged] [.unchanged] :=
  List.Forall₂.cons ReplayUnit.reduces_unchanged List.Forall₂.nil

/-- Units are read from a list that is not empty, or there is one that changes nothing. -/
theorem readUnits_eq_ok {ignored : List UInt32} {json? : Option Json} {units : List ReplayUnit}
    (h : readUnits ignored json? = .ok units) :
    (units = [.unchanged] ∧ writtenSections json? = [.unchanged] ∧
        ∀ more, readUnits more json? = .ok [.unchanged]) ∨
      ∃ item items units?, json? = some (.array (item :: items)) ∧
        (item :: items).mapM (readUnit ignored) = .ok units? ∧ units = units?.filterMap id := by
  cases json? with
  | none =>
      cases h
      exact Or.inl ⟨rfl, rfl, fun _ => rfl⟩
  | some json =>
      cases json with
      | null =>
          cases h
          exact Or.inl ⟨rfl, rfl, fun _ => rfl⟩
      | array items =>
          cases items with
          | nil =>
              cases h
              exact Or.inl ⟨rfl, rfl, fun _ => rfl⟩
          | cons item items =>
              obtain ⟨units?, hRead, h⟩ := bind_eq_ok_iff.mp h
              cases h
              exact Or.inr ⟨item, items, units?, rfl, hRead, rfl⟩
      | bool _ => cases h
      | number _ => cases h
      | string _ => cases h
      | object _ => cases h

theorem activeUnits_of_readUnits {ignored : List UInt32} {json? : Option Json}
    {units : List ReplayUnit} (h : readUnits ignored json? = .ok units) {n : UInt32}
    (hn : n ∉ ignored) : ActiveUnits n units (writtenSections json?) := by
  rcases readUnits_eq_ok h with ⟨rfl, hWritten, _⟩ | ⟨item, items, units?, rfl, hRead, rfl⟩
  · rw [hWritten]
    exact activeUnits_unchanged n
  · exact activeUnits_of_forall₂ hn (mapM_eq_ok_iff.mp hRead)

/-- The section for each loop is read like a unit; an absent one changes nothing. -/
theorem reduces_of_readPerLoop {json? : Option Json} {perLoop : ReplayUnit}
    (h : readPerLoop json? = .ok perLoop) :
    perLoop.Reduces (.ofMembers (writtenMembers (json?.getD .null))) := by
  cases json? with
  | none =>
      cases h
      exact ReplayUnit.reduces_unchanged
  | some json =>
      cases json with
      | null =>
          cases h
          exact ReplayUnit.reduces_unchanged
      | object members =>
          exact (reduces_of_readModifiers h).2
      | bool _ => cases h
      | number _ => cases h
      | string _ => cases h
      | array _ => cases h

theorem readRoot_eq_ok {json : Json} {members : List (String × Json)}
    (h : readRoot json = .ok members) : members = writtenMembers json := by
  cases json <;> cases h <;> rfl

/-- A plan is accepted iff it has no unknown key and both of its sections are. -/
theorem parse_eq_ok_iff {json : Json} {ignored : List UInt32} {plan : Plan} :
    parse json ignored = .ok plan ↔ ∃ members, readRoot json.canonical = .ok members ∧
      ((members.map Prod.fst).find? fun name => name != "units" && name != "loop") = none ∧
      readUnits ignored (members.lookup "units") = .ok plan.units ∧
      readPerLoop (members.lookup "loop") = .ok plan.perLoop := by
  rw [parse, bind_eq_ok_iff]
  refine exists_congr fun members => and_congr_right fun _ => ?_
  cases (members.map Prod.fst).find? fun name => name != "units" && name != "loop" with
  | some name => exact iff_of_false nofun fun h => nomatch h.1
  | none =>
      constructor
      · intro h
        obtain ⟨units, hUnits, h⟩ := bind_eq_ok_iff.mp h
        obtain ⟨perLoop, hPerLoop, h⟩ := bind_eq_ok_iff.mp h
        cases h
        exact ⟨rfl, hUnits, hPerLoop⟩
      · rintro ⟨_, hUnits, hPerLoop⟩
        exact bind_eq_ok_iff.mpr ⟨_, hUnits, bind_eq_ok_iff.mpr ⟨_, hPerLoop, rfl⟩⟩

/-- What a plan that was accepted keeps of the numbers that were written. -/
theorem of_parse {json : Json} {ignored : List UInt32} {plan : Plan}
    (h : parse json ignored = .ok plan) :
    (∀ n, n ∉ ignored → ActiveUnits n plan.units (writtenUnits json)) ∧
      plan.perLoop.Reduces (writtenPerLoop json) := by
  obtain ⟨members, hRoot, _, hUnits, hPerLoop⟩ := parse_eq_ok_iff.mp h
  rw [readRoot_eq_ok hRoot] at hUnits hPerLoop
  exact ⟨fun n hn => activeUnits_of_readUnits hUnits hn, reduces_of_readPerLoop hPerLoop⟩

end Plan
end FlowAudit
