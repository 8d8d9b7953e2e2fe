import Mathlib.Data.List.Forall2
import Staging.Schema.Pattern

/-!
# Which strings have a shape

The two shapes are groups of characters of one class with separators between. A UUID is taken for
one also before a line end, and a date and time also in digits of another script
(`shapes_accept`).
-/

namespace Staging.Schema

open Text

/-- Groups of characters of one class: the first group has so many, and each further one stands
behind its separator. -/
def InGroups (p : CharClass) (first : Nat) : List (Char × Nat) → List Char → Prop
  | [], s => s.length = first ∧ s.all p = true
  | (separator, size) :: groups, s => ∃ group rest, s = group ++ separator :: rest ∧
      group.length = first ∧ group.all p = true ∧ InGroups p size groups rest

/-- The shape of such groups. -/
def groupShape (p : CharClass) (first : Nat) (groups : List (Char × Nat)) : List CharClass :=
  List.replicate first p ++ groups.flatMap fun (separator, size) =>
    exactly separator :: List.replicate size p

/-! ## Matching a shape -/

/-- The characters are of the classes of the shape, one by one. -/
def HasShape (s : List Char) (shape : List CharClass) : Prop :=
  List.Forall₂ (fun c p => p c = true) s shape

theorem afterShape?_eq_some_iff {shape : List CharClass} {s rest : List Char} :
    afterShape? shape s = some rest ↔ ∃ head, s = head ++ rest ∧ HasShape head shape := by
  induction shape generalizing s with
  | nil =>
      rw [afterShape?, Option.some.injEq]
      constructor
      · rintro rfl
        exact ⟨[], rfl, .nil⟩
      · rintro ⟨_, rfl, ⟨⟩⟩
        rfl
  | cons p shape ih =>
      cases s with
      | nil =>
          refine iff_of_false nofun ?_
          rintro ⟨_, heq, ⟨⟩⟩
          cases heq
      | cons c s =>
          rw [afterShape?]
          constructor
          · intro h
            split at h
            · rename_i hc
              obtain ⟨head, rfl, hhead⟩ := ih.mp h
              exact ⟨c :: head, rfl, .cons hc hhead⟩
            · cases h
          · rintro ⟨_, heq, ⟨⟩ | ⟨hc, hhead⟩⟩
            obtain ⟨rfl, rfl⟩ := List.cons.inj heq
            rw [if_pos hc]
            exact ih.mpr ⟨_, rfl, hhead⟩

theorem hasShape_replicate {n : Nat} {p : CharClass} {s : List Char} :
    HasShape s (List.replicate n p) ↔ s.length = n ∧ s.all p = true := by
  unfold HasShape
  induction n generalizing s with
  | zero => cases s <;> simp
  | succ n ih =>
      cases s with
      | nil => simp [List.replicate_succ]
      | cons c s => simp [List.replicate_succ, ih, and_left_comm]

theorem hasShape_append {shape more : List CharClass} {s : List Char} :
    HasShape s (shape ++ more) ↔ ∃ head tail, s = head ++ tail ∧ HasShape head shape ∧
      HasShape tail more := by
  constructor
  · intro h
    exact ⟨s.take shape.length, s.drop shape.length, (List.take_append_drop _ _).symm,
      List.forall₂_take_append s shape more h, List.forall₂_drop_append s shape more h⟩
  · rintro ⟨head, tail, rfl, hhead, htail⟩
    exact List.rel_append hhead htail

/-! ## Groups -/

section

variable {p q : CharClass} {first : Nat} {groups : List (Char × Nat)} {s : List Char}

/-- Groups are what their shape describes. -/
theorem hasShape_groupShape :
    HasShape s (groupShape p first groups) ↔ InGroups p first groups s := by
  induction groups generalizing first s with
  | nil => rw [groupShape, List.flatMap_nil, List.append_nil, hasShape_replicate, InGroups]
  | cons group groups ih =>
      obtain ⟨separator, size⟩ := group
      rw [groupShape, List.flatMap_cons, List.cons_append, ← groupShape, hasShape_append, InGroups]
      constructor
      · rintro ⟨group, _, rfl, hgroup, ⟨⟩ | ⟨hc, hrest⟩⟩
        obtain ⟨hlength, hall⟩ := hasShape_replicate.mp hgroup
        rw [exactly, beq_iff_eq] at hc
        exact ⟨group, _, by rw [hc], hlength, hall, ih.mp hrest⟩
      · rintro ⟨group, rest, rfl, hlength, hall, hrest⟩
        exact ⟨group, _, rfl, hasShape_replicate.mpr ⟨hlength, hall⟩,
          .cons (by rw [exactly, beq_iff_eq]) (ih.mpr hrest)⟩

theorem afterShape?_groupShape {rest : List Char} :
    afterShape? (groupShape p first groups) s = some rest ↔
      ∃ head, s = head ++ rest ∧ InGroups p first groups head := by
  simp only [afterShape?_eq_some_iff, hasShape_groupShape]

instance : Decidable (InGroups p first groups s) :=
  decidable_of_iff (afterShape? (groupShape p first groups) s = some [])
    (by simp [afterShape?_groupShape])

theorem InGroups.length_eq (h : InGroups p first groups s) :
    s.length = (groupShape p first groups).length :=
  (hasShape_groupShape.mpr h).length_eq

/-- Every character is of the class or a separator. -/
theorem InGroups.mem (h : InGroups p first groups s) {c : Char} (hc : c ∈ s) :
    p c = true ∨ c ∈ groups.map Prod.fst := by
  induction groups generalizing first s with
  | nil => exact .inl (List.all_eq_true.mp h.2 c hc)
  | cons group groups ih =>
      obtain ⟨group, rest, rfl, -, hgroup, hrest⟩ := h
      rw [List.map_cons, List.mem_cons]
      rcases List.mem_append.mp hc with hc | hc
      · exact .inl (List.all_eq_true.mp hgroup c hc)
      rcases List.mem_cons.mp hc with rfl | hc
      · exact .inr (.inl rfl)
      · exact (ih hrest hc).imp_right .inr

/-- Groups of one class are groups of another if their characters are of it, too. -/
theorem InGroups.mono (h : InGroups p first groups s)
    (hpq : ∀ c ∈ s, p c = true → q c = true) : InGroups q first groups s := by
  have hall : ∀ group : List Char, (∀ c ∈ group, p c = true → q c = true) →
      group.all p = true → group.all q = true := by
    intro group hpq hp
    exact List.all_eq_true.mpr fun c hc => hpq c hc (List.all_eq_true.mp hp c hc)
  induction groups generalizing first s with
  | nil => exact ⟨h.1, hall s hpq h.2⟩
  | cons group groups ih =>
      obtain ⟨group, rest, rfl, hlength, hgroup, hrest⟩ := h
      obtain ⟨hhead, -, htail⟩ : (∀ c ∈ group, p c = true → q c = true) ∧ _ ∧
          ∀ c ∈ rest, p c = true → q c = true := by
        simpa only [List.forall_mem_append, List.forall_mem_cons] using hpq
      exact ⟨group, rest, rfl, hlength, hall group hhead hgroup, ih hrest htail⟩

end

/-! ## The documented forms -/

/-- Hexadecimal digits of either case. -/
def isHexDigit : CharClass := fun c =>
  c.isDigit || ('a' ≤ c && c ≤ 'f') || ('A' ≤ c && c ≤ 'F')

theorem hexClass_eq : hexClass = isHexDigit := by
  funext c
  have hval : c.toNat = c.val.toNat := rfl
  unfold hexClass hexValue? isHexDigit Char.isDigit
  rw [Bool.eq_iff_iff]
  simp only [Bool.or_eq_true, Bool.and_eq_true, decide_eq_true_eq, Char.le_def, ge_iff_le,
    UInt32.le_iff_toNat_le, hval]
  split_ifs <;> simp <;> omega

/-- Hexadecimal digits in groups of 8, 4, 4, 4 and 12 with hyphens between. -/
def IsUuidForm (s : List Char) : Prop :=
  InGroups isHexDigit 8 [('-', 4), ('-', 4), ('-', 4), ('-', 12)] s

/-- The groups of a date and time and the separators before them. -/
def dateTimeGroups : List (Char × Nat) := [('-', 2), ('-', 2), ('T', 2), (':', 2), (':', 2)]

/-- A date and a time in the digits from `0` to `9`. -/
def IsDateTimeForm (s : List Char) : Prop := InGroups Char.isDigit 4 dateTimeGroups s

theorem decimalZeros_ascii : ∀ z ∈ decimalZeros, z = '0'.toNat ∨ 0x80 ≤ z := by decide

theorem isDigit_iff {c : Char} :
    c.isDigit = true ↔ isDecimal c = true ∧ c.toNat < 0x80 := by
  have hval : c.toNat = c.val.toNat := rfl
  unfold isDecimal decimalValue? Char.isDigit
  simp only [Option.isSome_map, List.find?_isSome, Bool.and_eq_true, decide_eq_true_eq, ge_iff_le,
    UInt32.le_iff_toNat_le, ← hval]
  constructor
  · rintro ⟨hzero, hnine⟩
    have hzero : 48 ≤ c.toNat := hzero
    have hnine : c.toNat ≤ 57 := hnine
    exact ⟨⟨'0'.toNat, by decide, hzero, hnine⟩, by omega⟩
  · rintro ⟨⟨z, hz, hfrom, hto⟩, hascii⟩
    rcases decimalZeros_ascii z hz with rfl | hz
    · exact ⟨hfrom, hto⟩
    · omega

theorem isDateTimeForm_iff {s : List Char} : IsDateTimeForm s ↔
    InGroups isDecimal 4 dateTimeGroups s ∧ ∀ c ∈ s, c.toNat < 0x80 := by
  constructor
  · intro h
    refine ⟨h.mono fun c _ hc => (isDigit_iff.mp hc).1, fun c hc => ?_⟩
    rcases h.mem hc with hdigit | hseparator
    · exact (isDigit_iff.mp hdigit).2
    · have hall : (dateTimeGroups.map Prod.fst).all (·.toNat < 0x80) = true := by decide
      exact of_decide_eq_true (List.all_eq_true.mp hall c hseparator)
  · rintro ⟨h, hascii⟩
    exact h.mono fun c hc hdecimal => isDigit_iff.mpr ⟨hdecimal, hascii c hc⟩

/-! ## What is taken for a UUID, or for a date and time -/

theorem isUuid_iff {s : String} : isUuid s = true ↔
    IsUuidForm s.toList ∨ ∃ body, s.toList = body ++ ['\n'] ∧ IsUuidForm body := by
  have hshape : uuidShape = groupShape hexClass 8 [('-', 4), ('-', 4), ('-', 4), ('-', 12)] := rfl
  have hafter : ∀ rest, afterShape? uuidShape s.toList = some rest ↔
      ∃ body, s.toList = body ++ rest ∧ IsUuidForm body := by
    intro rest
    rw [hshape, hexClass_eq, afterShape?_groupShape]
    rfl
  have hempty := hafter []
  simp only [List.append_nil, exists_eq_left'] at hempty
  rw [← hempty, ← hafter, isUuid]
  split <;> simp_all

theorem looksLikeDateTime_iff {s : String} : looksLikeDateTime s = true ↔
    InGroups isDecimal 4 dateTimeGroups (s.toList.take 19) := by
  have hshape : dateTimeShape = groupShape isDecimal 4 dateTimeGroups := rfl
  rw [looksLikeDateTime, Option.isSome_iff_exists]
  simp only [hshape, afterShape?_groupShape]
  constructor
  · rintro ⟨rest, head, heq, hhead⟩
    have hlength : head.length = 19 := hhead.length_eq
    rwa [heq, ← hlength, List.take_left]
  · intro h
    exact ⟨s.toList.drop 19, s.toList.take 19, (List.take_append_drop _ _).symm, h⟩

/-- A UUID is what has its form, or has it before a line end; a date and time is what begins with
one in decimal digits of any script, and has its form just if these are the ASCII ones. -/
theorem shapes_accept (s : String) :
    (isUuid s = true ↔
      IsUuidForm s.toList ∨ ∃ body, s.toList = body ++ ['\n'] ∧ IsUuidForm body) ∧
    (looksLikeDateTime s = true ↔ InGroups isDecimal 4 dateTimeGroups (s.toList.take 19)) ∧
    (IsDateTimeForm (s.toList.take 19) ↔
      looksLikeDateTime s = true ∧ ∀ c ∈ s.toList.take 19, c.toNat < 0x80) := by
  refine ⟨isUuid_iff, looksLikeDateTime_iff, ?_⟩
  rw [isDateTimeForm_iff, looksLikeDateTime_iff]

/-- A line end after a UUID, and digits in full width, are let through. -/
theorem strays_accepted :
    isUuid "3f2504e0-4f89-11d3-9a0c-0305e82c3301\n" = true ∧
    ¬IsUuidForm "3f2504e0-4f89-11d3-9a0c-0305e82c3301\n".toList ∧
    looksLikeDateTime "\uff12\uff10\uff12\uff10-01-31T12:34:56" = true ∧
    ¬IsDateTimeForm ("\uff12\uff10\uff12\uff10-01-31T12:34:56".toList.take 19) := by
  unfold IsUuidForm IsDateTimeForm
  decide +kernel

end Staging.Schema
