import Mathlib.Data.List.Induction
import Staging.Proofs.Sql.Insert

/-!
# Rows split into statements

Which rows of an array go together into one statement depends on lengths alone (`Inserter.split`).
If the lead of a statement is within the threshold, this is the only greedy split of the rows
(`splits_iff`). If it is past the threshold, a statement without rows comes before all others
(`nil_mem_split`).
-/

namespace Staging.Sql

/-- What is asked of a batch. -/
inductive Request
  | begin
  | write (row : String)
  | finish
  deriving DecidableEq, Repr

namespace Request

/-- The requests by which an array of rows is inserted. -/
def ofArray (rows : List String) : List Request := .begin :: (rows.map .write ++ [.finish])

def ofArrays (arrays : List (List String)) : List Request := arrays.flatMap ofArray

/-- The row that is to be written, if one is. -/
def row? : Request → Option String
  | .write row => some row
  | _ => none

/-- Whether an array is open where this may be asked. -/
def isWithin : Request → Bool
  | .begin => false
  | .write _ | .finish => true

/-- Whether an array is open after this. -/
def opens : Request → Bool
  | .begin | .write _ => true
  | .finish => false

/-- Requests that may be made where an array is open, or is not. -/
def InTurn : Bool → List Request → Prop
  | _, [] => True
  | inside, request :: more => request.isWithin = inside ∧ InTurn request.opens more

theorem ofArrays_cons (rows : List String) (arrays : List (List String)) :
    ofArrays (rows :: arrays) = .begin :: (rows.map .write ++ .finish :: ofArrays arrays) := by
  simp [ofArrays, ofArray]

theorem inTurn_ofArrays (arrays : List (List String)) : InTurn false (ofArrays arrays) := by
  induction arrays with
  | nil => trivial
  | cons rows arrays ih =>
      have hrows : InTurn true (rows.map .write ++ .finish :: ofArrays arrays) := by
        induction rows with
        | nil => exact ⟨rfl, ih⟩
        | cons row rows ihRows => exact ⟨rfl, ihRows⟩
      rw [ofArrays_cons]
      exact ⟨rfl, hrows⟩

theorem InTurn.of_append {requests more : List Request} {inside : Bool}
    (h : InTurn inside (requests ++ more)) : InTurn inside requests := by
  induction requests generalizing inside with
  | nil => trivial
  | cons request requests ih => exact ⟨h.1, ih h.2⟩

end Request

namespace Inserter

/-! ## Driving a batch -/

variable {σ : Type}

/-- Does what is asked. -/
def perform (w : Inserter) (b : Batch) : Request → Run σ Batch
  | .begin => return w.begin b
  | .write row => w.write b row
  | .finish => w.finish b

def performAll (w : Inserter) (b : Batch) (requests : List Request) : Run σ Batch :=
  requests.foldlM w.perform b

/-! ## The split -/

/-- The text of a statement of these rows without its end. -/
def gathered (w : Inserter) (rows : List String) : String := w.lead ++ ",".intercalate rows

/-- What a request sends of the rows gathered before it, and what is gathered after it. -/
def turn (w : Inserter) (current : List String) : Request → List (List String) × List String
  | .begin => ([], [])
  | .write row =>
    if w.threshold < (w.gathered current).length then ([current], [row])
    else ([], current ++ [row])
  | .finish => (if current = [] then [] else [current], [])

/-- What requests send, statement by statement, and what is gathered after them. -/
def turns (w : Inserter) (current : List String) :
    List Request → List (List String) × List String
  | [] => ([], current)
  | request :: more =>
    let rest := w.turns (w.turn current request).2 more
    ((w.turn current request).1 ++ rest.1, rest.2)

/-- The rows of an array that are still to come, statement by statement, behind those gathered. -/
def splitFrom (w : Inserter) (current : List String) : List String → List (List String)
  | [] => if current = [] then [] else [current]
  | row :: rows =>
    if w.threshold < (w.gathered current).length then current :: w.splitFrom [row] rows
    else w.splitFrom (current ++ [row]) rows

/-- The rows of an array, statement by statement. -/
def split (w : Inserter) (rows : List String) : List (List String) := w.splitFrom [] rows

/-- The runs are a greedy split of the rows: none is empty, each but for its last row is within the
threshold, and each that another follows is past it. -/
structure Splits (w : Inserter) (rows : List String) (runs : List (List String)) : Prop where
  rows : runs.flatten = rows
  filled : [] ∉ runs
  fits : ∀ run ∈ runs, ((w.gathered run.dropLast).length : Int) ≤ w.threshold
  full : ∀ run ∈ runs.dropLast, w.threshold < (w.gathered run).length

variable {w : Inserter} {current rows : List String}

theorem gathered_nil (w : Inserter) : w.gathered [] = w.lead := by
  rw [gathered, String.intercalate_nil, String.append_empty]

theorem length_gathered_le (w : Inserter) (rows more : List String) :
    (w.gathered rows).length ≤ (w.gathered (rows ++ more)).length := by
  induction more using List.reverseRecOn with
  | nil => simp
  | append_singleton more row ih =>
      rw [← List.append_assoc, gathered, gathered, Batch.intercalate_concat] at *
      simp only [String.length_append] at *
      omega

theorem splitFrom_ne_nil (w : Inserter) (hcurrent : current ≠ []) (rows : List String) :
    w.splitFrom current rows ≠ [] := by
  induction rows generalizing current with
  | nil => simp [splitFrom, hcurrent]
  | cons row rows ih =>
      rw [splitFrom]
      split
      · exact List.cons_ne_nil _ _
      · exact ih (by simp)

theorem nil_not_mem_splitFrom (w : Inserter) (hcurrent : current ≠ []) (rows : List String) :
    [] ∉ w.splitFrom current rows := by
  induction rows generalizing current with
  | nil => simp [splitFrom, hcurrent, Ne.symm hcurrent]
  | cons row rows ih =>
      rw [splitFrom]
      split
      · simp [Ne.symm hcurrent, ih]
      · exact ih (by simp)

theorem flatten_splitFrom (w : Inserter) (current rows : List String) :
    (w.splitFrom current rows).flatten = current ++ rows := by
  induction rows generalizing current with
  | nil => by_cases h : current = [] <;> simp [splitFrom, h]
  | cons row rows ih =>
      rw [splitFrom]
      split <;> simp [ih]

/-- Only the lead can be past the threshold before any row is gathered. -/
theorem nil_mem_split : [] ∈ w.split rows ↔ w.threshold < w.lead.length ∧ rows ≠ [] := by
  cases rows with
  | nil => simp [split, splitFrom]
  | cons row rows =>
      have hnot := nil_not_mem_splitFrom w (List.cons_ne_nil row []) rows
      rw [split, splitFrom, gathered_nil]
      split <;> simp [*]

/-- If the lead is past the threshold, it is sent before the first row. -/
theorem split_eq_cons (hlead : w.threshold < w.lead.length) (hrows : rows ≠ []) :
    ∃ more, w.split rows = [] :: more := by
  cases rows with
  | nil => exact absurd rfl hrows
  | cons row rows =>
      refine ⟨w.splitFrom [row] rows, if_pos ?_⟩
      rwa [gathered_nil]

/-! ## The greedy split -/

theorem splitFrom_fits (hlead : (w.lead.length : Int) ≤ w.threshold)
    (hcurrent : ((w.gathered current.dropLast).length : Int) ≤ w.threshold) :
    ∀ run ∈ w.splitFrom current rows, ((w.gathered run.dropLast).length : Int) ≤ w.threshold := by
  induction rows generalizing current with
  | nil =>
      intro run hrun
      rw [splitFrom] at hrun
      split at hrun
      · cases hrun
      · rwa [List.mem_singleton.mp hrun]
  | cons row rows ih =>
      rw [splitFrom]
      split
      · refine List.forall_mem_cons.mpr ⟨hcurrent, ih ?_⟩
        rwa [List.dropLast_singleton, gathered_nil]
      · rename_i hwithin
        refine ih ?_
        rw [List.dropLast_concat]
        omega

theorem splitFrom_full (w : Inserter) (current rows : List String) :
    ∀ run ∈ (w.splitFrom current rows).dropLast, w.threshold < (w.gathered run).length := by
  induction rows generalizing current with
  | nil =>
      intro run hrun
      rw [splitFrom] at hrun
      split at hrun <;> cases hrun
  | cons row rows ih =>
      rw [splitFrom]
      split
      · rename_i hpast
        rw [List.dropLast_cons_of_ne_nil (splitFrom_ne_nil w (List.cons_ne_nil row []) rows)]
        exact List.forall_mem_cons.mpr ⟨hpast, ih [row]⟩
      · exact ih _

theorem splits_split (hlead : (w.lead.length : Int) ≤ w.threshold) (rows : List String) :
    w.Splits rows (w.split rows) where
  rows := flatten_splitFrom w [] rows
  filled := by
    intro hnil
    have := (nil_mem_split.mp hnil).1
    omega
  fits := splitFrom_fits hlead (by rwa [List.dropLast_nil, gathered_nil])
  full := splitFrom_full w [] rows

section

variable {first first' : List String} {more more' runs runs' : List (List String)}

theorem Splits.tail (h : w.Splits rows (first :: more)) : w.Splits more.flatten more where
  rows := rfl
  filled := fun hnil => h.filled (List.mem_cons_of_mem first hnil)
  fits := fun run hrun => h.fits run (List.mem_cons_of_mem first hrun)
  full := by
    intro run hrun
    refine h.full run ?_
    rw [List.dropLast_cons_of_ne_nil (by rintro rfl; cases hrun)]
    exact List.mem_cons_of_mem first hrun

/-- A run that ends at a row cannot go on behind it in another split. -/
theorem Splits.length_le (h : w.Splits rows (first :: more))
    (h' : w.Splits rows (first' :: more')) : first'.length ≤ first.length := by
  by_contra hlonger
  have heq : first ++ more.flatten = first' ++ more'.flatten := h.rows.trans h'.rows.symm
  obtain ⟨extra, rfl, hmore⟩ : ∃ extra, first' = first ++ extra ∧
      more.flatten = extra ++ more'.flatten := by
    rcases List.append_eq_append_iff.mp heq with hextra | ⟨extra, rfl, -⟩
    · exact hextra
    · simp at hlonger
  have hextra : extra ≠ [] := by
    rintro rfl
    simp at hlonger
  have hne : more ≠ [] := by
    rintro rfl
    simp [hextra] at hmore
  have hpast := h.full first (by simp [List.dropLast_cons_of_ne_nil hne])
  have hwithin := h'.fits (first ++ extra) List.mem_cons_self
  rw [List.dropLast_append_of_ne_nil hextra] at hwithin
  have hlength := length_gathered_le w first extra.dropLast
  omega

/-- Rows have one greedy split at most. -/
theorem Splits.unique (h : w.Splits rows runs) (h' : w.Splits rows runs') : runs = runs' := by
  induction runs generalizing rows runs' with
  | nil =>
      obtain rfl := h.rows
      cases runs' with
      | nil => rfl
      | cons first' more' =>
          have hfirst' : first' = [] := (List.append_eq_nil_iff.mp h'.rows).1
          exact absurd (hfirst' ▸ List.mem_cons_self) h'.filled
  | cons first more ih =>
      cases runs' with
      | nil =>
          have hfirst : first = [] :=
            (List.append_eq_nil_iff.mp (h.rows.trans h'.rows.symm)).1
          exact absurd (hfirst ▸ List.mem_cons_self) h.filled
      | cons first' more' =>
          have hlength := Nat.le_antisymm (h'.length_le h) (h.length_le h')
          have heq : first ++ more.flatten = first' ++ more'.flatten := h.rows.trans h'.rows.symm
          obtain ⟨rfl, hmore⟩ := List.append_inj heq hlength
          rw [ih h.tail (hmore ▸ h'.tail)]

/-- A list of runs is the greedy split of the rows just if the batch splits them so. -/
theorem splits_iff (hlead : (w.lead.length : Int) ≤ w.threshold) :
    w.Splits rows runs ↔ runs = w.split rows := by
  constructor
  · intro h
    exact h.unique (splits_split hlead rows)
  · rintro rfl
    exact splits_split hlead rows

end

/-! ## Requests in turn -/

theorem turns_append (w : Inserter) (current : List String) (requests more : List Request) :
    w.turns current (requests ++ more)
      = ((w.turns current requests).1 ++ (w.turns (w.turns current requests).2 more).1,
        (w.turns (w.turns current requests).2 more).2) := by
  induction requests generalizing current with
  | nil => rfl
  | cons request requests ih =>
      simp only [List.cons_append, turns, ih, List.append_assoc]

theorem flatten_turn {request : Request} (hcurrent : request.isWithin = false → current = []) :
    (w.turn current request).1.flatten ++ (w.turn current request).2
      = current ++ request.row?.toList := by
  cases request with
  | begin => simp [turn, hcurrent rfl, Request.row?]
  | write row =>
      rw [turn]
      split <;> simp [Request.row?]
  | finish =>
      by_cases hnil : current = [] <;> simp [turn, hnil, Request.row?]

/-- No row is lost: what is sent and what is gathered are the rows so far. -/
theorem flatten_turns (w : Inserter) (current : List String) {inside : Bool}
    {requests : List Request} (h : Request.InTurn inside requests)
    (hcurrent : inside = false → current = []) :
    (w.turns current requests).1.flatten ++ (w.turns current requests).2
      = current ++ requests.filterMap Request.row? := by
  induction requests generalizing inside current with
  | nil => simp [turns]
  | cons request requests ih =>
      obtain ⟨rfl, hmore⟩ := h
      have hstep := flatten_turn (w := w) hcurrent
      have hnext : request.opens = false → (w.turn current request).2 = [] := by
        intro hclosed
        cases request with
        | finish => rfl
        | _ => cases hclosed
      have hrest := ih _ hmore hnext
      simp only [turns, List.flatten_append, List.append_assoc, hrest]
      rw [← List.append_assoc, hstep, List.append_assoc, List.filterMap_cons]
      cases request <;> rfl

theorem turns_array (w : Inserter) (current rows : List String) (more : List Request) :
    w.turns current (rows.map .write ++ .finish :: more)
      = (w.splitFrom current rows ++ (w.turns [] more).1, (w.turns [] more).2) := by
  induction rows generalizing current with
  | nil => simp [turns, turn, splitFrom]
  | cons row rows ih =>
      rw [List.map_cons, List.cons_append, turns, splitFrom]
      by_cases hpast : w.threshold < (w.gathered current).length <;> simp [turn, hpast, ih]

/-- Arrays of rows are sent array by array, each as it is split. -/
theorem turns_ofArrays (w : Inserter) (arrays : List (List String)) :
    w.turns [] (Request.ofArrays arrays) = (arrays.flatMap w.split, []) := by
  induction arrays with
  | nil => rfl
  | cons rows arrays ih =>
      simp [Request.ofArrays_cons, turns, turn, turns_array, ih, split]

end Inserter

end Staging.Sql
