import Staging.Proofs.Session
import Staging.Sql.Insert

/-!
# Batches of tuples

What a batch holds at any moment is its lead and the tuples added since, with commas between them
(`Batch.Holds`).
-/

namespace Staging.Sql

namespace Batch

/-- The batch is a statement of these tuples without its end. -/
structure Holds (b : Batch) (lead : String) (rows : List String) : Prop where
  text : b.text = lead ++ ",".intercalate rows
  size : b.size = b.text.length
  pending : b.pending = rows.length

theorem holds_start (b : Batch) (lead : String) : (b.start lead).Holds lead [] :=
  ⟨by rw [String.intercalate_nil, String.append_empty]; rfl, rfl, rfl⟩

variable {b : Batch} {lead : String} {rows : List String}

theorem intercalate_concat (rows : List String) (row : String) :
    ",".intercalate (rows ++ [row])
      = ",".intercalate rows ++ (if 0 < rows.length then "," else "") ++ row := by
  cases rows with
  | nil =>
      rw [List.nil_append, String.intercalate_singleton, String.intercalate_nil,
        List.length_nil, if_neg (Nat.lt_irrefl 0), String.empty_append, String.empty_append]
  | cons first rows =>
      rw [String.intercalate_append_of_ne_nil (List.cons_ne_nil _ _) (List.cons_ne_nil _ _),
        String.intercalate_singleton, List.length_cons, if_pos (Nat.succ_pos _)]

theorem Holds.append (h : b.Holds lead rows) (row : String) :
    (b.append row).Holds lead (rows ++ [row]) := by
  refine ⟨?_, ?_, ?_⟩
  · simp only [Batch.append]
    rw [h.text, h.pending, intercalate_concat, String.append_assoc, String.append_assoc,
      String.append_assoc]
  · simp only [Batch.append]
    rw [h.size, String.length_append, String.length_append]
  · simp only [Batch.append]
    rw [h.pending, List.length_append]
    rfl

theorem Holds.foldl (h : b.Holds lead rows) (more : List String) :
    (more.foldl Batch.append b).Holds lead (rows ++ more) := by
  induction more generalizing b rows with
  | nil => rwa [List.append_nil, List.foldl_nil]
  | cons row more ih =>
      have hstep := ih (h.append row)
      rwa [List.append_assoc, List.singleton_append] at hstep

end Batch

namespace Inserter

/-- The statement that inserts these tuples. -/
def statement (w : Inserter) (rows : List String) : String :=
  w.lead ++ ",".intercalate rows ++ Batch.terminator

end Inserter

end Staging.Sql
