import Staging.Proofs.Schema.Statistics
import Staging.Proofs.Stage.Load

/-!
# The two passes over the pages

Both passes go through the same documents, those that the pages of the table hold. Pass one observes
every record of them (`analyze_ok`), and pass two books every record (`load_ok`).
-/

namespace Staging.Stage

open Sql Page Schema

/-- The records of these documents in reading order. -/
def recordsOfAll (docs : List Json) : List Json := (docs.flatMap recordArrays).flatten

theorem recordsOfAll_cons (doc : Json) (docs : List Json) :
    recordsOfAll (doc :: docs) = (recordArrays doc).flatten ++ recordsOfAll docs := by
  rw [recordsOfAll, List.flatMap_cons, List.flatten_append]
  rfl

variable {stager : Stager} {p p' : Session Progress} {table : String}

theorem along_reportPage (table : String) (pass : Pass) (path : String) :
    Run.Along (Books table {}) (Stager.reportPage pass path) :=
  chain_books.bind chain_books.own fun _ => along_log _ _ _ _ _

theorem books_opened (path : String) (p : Session Progress) :
    Books table {} p { p with journal := p.journal.push (.opened path) } :=
  along_note table (n := .opened path) rfl p

/-! ## Pass one -/

/-- The record of an item, if it is one. -/
def itemRecord? : Item Json → Option Json
  | .record r => some r
  | _ => none

theorem filterMap_arrayItems (arrays : List (List Json)) :
    (arrays.flatMap arrayItems).filterMap itemRecord? = arrays.flatten := by
  induction arrays with
  | nil => rfl
  | cons records arrays ih =>
      have hrecords : (records.map (Item.record (α := Json))).filterMap itemRecord? = records := by
        rw [List.filterMap_map]
        exact List.filterMap_some
      rw [List.flatMap_cons, List.filterMap_append, ih, arrayItems, List.filterMap_cons,
        List.filterMap_append, hrecords]
      simp [itemRecord?]

/-- What pass one does with an item. -/
def observeItem (statistics : Statistics) (item : Item Json) : Run Progress Statistics :=
  match item with
  | .record r => return statistics.observe r
  | _ => return statistics

theorem observed_of_visits {items : List (Item Json)} {st st' : Statistics}
    (h : Visits observeItem st p items st' p') :
    st' = (items.filterMap itemRecord?).foldl Statistics.observe st ∧ Run.Logs p p' := by
  induction items generalizing st p with
  | nil =>
      obtain ⟨rfl, rfl⟩ := h
      exact ⟨rfl, Run.chain_logs.refl p⟩
  | cons item items ih =>
      obtain ⟨p₁, st₁, p₂, hlogs, hvisit, hmore⟩ := h
      obtain ⟨hst, hlogs'⟩ := ih hmore
      cases item with
      | record r =>
          obtain ⟨rfl, rfl⟩ := Run.pure_ok hvisit
          exact ⟨hst, Run.chain_logs.trans hlogs hlogs'⟩
      | _ =>
          obtain ⟨rfl, rfl⟩ := Run.pure_ok hvisit
          exact ⟨hst, Run.chain_logs.trans hlogs hlogs'⟩

theorem analyzePage_ok (table : String) {st st' : Statistics} {path : String}
    (h : (stager.analyzePage st path).run p = (.ok st', p')) :
    ∃ doc, Holds stager.files path doc ∧
      st' = (recordArrays doc).flatten.foldl Statistics.observe st ∧ Books table {} p p' := by
  obtain ⟨⟨⟩, p₁, hreport, h⟩ := Run.bind_ok h
  have hreported := along_reportPage table .analyze path p
  rw [hreport] at hreported
  have hread : (read stager.files path st observeItem).run p₁ = (.ok st', p') := h
  obtain ⟨⟨doc, hdoc⟩, hvisits⟩ := read_ok hread
  obtain ⟨hst, hlogs⟩ := observed_of_visits (hvisits doc hdoc)
  rw [documentItems, filterMap_arrayItems] at hst
  exact ⟨doc, hdoc, hst, hreported.after ((books_opened path p₁).after (books_of_logs hlogs))⟩

theorem analyzePages_ok (table : String) {paths : List String} {st st' : Statistics}
    (h : (paths.foldlM stager.analyzePage st).run p = (.ok st', p')) :
    ∃ docs, List.Forall₂ (Holds stager.files) paths docs ∧
      st' = (recordsOfAll docs).foldl Statistics.observe st ∧ Books table {} p p' := by
  induction paths generalizing st p with
  | nil =>
      obtain ⟨rfl, rfl⟩ := Run.pure_ok h
      exact ⟨[], .nil, rfl, chain_books.refl p⟩
  | cons path paths ih =>
      obtain ⟨st₁, p₁, hpage, hmore⟩ := Run.foldlM_cons_ok h
      obtain ⟨doc, hdoc, hst, hbooks⟩ := analyzePage_ok table hpage
      obtain ⟨docs, hdocs, hst', hbooks'⟩ := ih hmore
      refine ⟨doc :: docs, .cons hdoc hdocs, ?_, hbooks.after hbooks'⟩
      rw [hst', hst, recordsOfAll_cons, List.foldl_append]

/-- Pass one observes all records of the documents that the pages hold, and books how many. -/
theorem analyze_ok {st : Statistics} (h : stager.analyze.run p = (.ok st, p')) :
    ∃ docs, List.Forall₂ (Holds stager.files) (stager.pages p.own) docs ∧
      st = (recordsOfAll docs).foldl Statistics.observe {} ∧
      Books p.own.table.name { analyzed := (recordsOfAll docs).length } p p' := by
  obtain ⟨own, p₁, hown, h⟩ := Run.bind_ok h
  obtain ⟨rfl, rfl⟩ := Run.pure_ok (a := p.own) (s := p) hown
  obtain ⟨st₁, p₂, hpages, h⟩ := Run.bind_ok h
  rw [Run.run_bind_ok (Run.run_count _ _ _)] at h
  obtain ⟨rfl, rfl⟩ := Run.pure_ok h
  obtain ⟨docs, hdocs, hst, hbooks⟩ := analyzePages_ok p.own.table.name hpages
  refine ⟨docs, hdocs, hst, ?_⟩
  have hobserved : st₁.observed = (recordsOfAll docs).length := by
    rw [hst, observed_foldl, Nat.zero_add]
  have hledger : Ledger.of p.own.table.name
      [.counted (.recordsProcessed p.own.table.name Pass.analyze.name) st₁.observed]
        = { analyzed := (recordsOfAll docs).length } := by
    rw [Pass.name, ledger_analyzed, hobserved]
  exact hbooks.after (hledger ▸ books_note _ _ p₂)

/-! ## Pass two -/

variable {t : Table} {n n' : Nat}

/-- The course of a run that executes these statements, and counts them in the progress, too. -/
abbrev Loads (stager : Stager) (t : Table) (batches : List (List String))
    (p p' : Session Progress) : Prop :=
  Moves t.name (inserted (stager.inserter t) batches)
    { p.own with statements := p.own.statements + batches.length } p p'

theorem Loads.append {batches more : List (List String)} {p'' : Session Progress}
    (h : Loads stager t batches p p') (h' : Loads stager t more p' p'') :
    Loads stager t (batches ++ more) p p'' := by
  have hall := h.trans h'
  rwa [h.own, ← inserted_append, Nat.add_assoc, ← List.length_append] at hall

theorem loadPage_ok {path : String} {doc : Json} (hdoc : Holds stager.files path doc)
    (h : (stager.loadPage t n path).run p = (.ok n', p')) :
    ∃ batches, List.Forall₂ (BatchesOf stager t) (recordArrays doc) batches ∧
      n' = n + (recordArrays doc).flatten.length ∧ Loads stager t batches.flatten p p' := by
  obtain ⟨⟨⟩, p₁, hreport, h⟩ := Run.bind_ok h
  have hreported := along_reportPage t.name .load path p
  rw [hreport] at hreported
  obtain ⟨⟨b, n₁⟩, p₂, hread, h⟩ := Run.bind_ok h
  rw [Run.run_bind_ok (Run.run_modifyOwn _ _)] at h
  obtain ⟨rfl, rfl⟩ := Run.pure_ok h
  obtain ⟨batches, hof, hn, hstatements, hbooks⟩ := arrays_books ((read_ok hread).2 doc hdoc)
  have hall := hreported.after ((books_opened path p₁).after hbooks)
  refine ⟨batches, hof, hn, hall.booked, ?_⟩
  rw [hall.own, hstatements, Nat.zero_add]

theorem loadPages_ok {paths : List String} {docs : List Json}
    (hdocs : List.Forall₂ (Holds stager.files) paths docs)
    (h : (paths.foldlM (stager.loadPage t) n).run p = (.ok n', p')) :
    ∃ batches, List.Forall₂ (BatchesOf stager t) (docs.flatMap recordArrays) batches ∧
      n' = n + (recordsOfAll docs).length ∧ Loads stager t batches.flatten p p' := by
  induction hdocs generalizing n p with
  | nil =>
      obtain ⟨rfl, rfl⟩ := Run.pure_ok h
      exact ⟨[], .nil, rfl, (Ledger.add_empty _).symm, rfl⟩
  | @cons path doc paths docs hdoc hdocs ih =>
      obtain ⟨n₁, p₁, hpage, hmore⟩ := Run.foldlM_cons_ok h
      obtain ⟨first, hof, hn, hloaded⟩ := loadPage_ok hdoc hpage
      obtain ⟨more, hofs, hn', hloaded'⟩ := ih hmore
      refine ⟨first ++ more, ?_, ?_, ?_⟩
      · rw [List.flatMap_cons]
        exact List.rel_append hof hofs
      · rw [hn', hn, recordsOfAll_cons, List.length_append, Nat.add_assoc]
      · rw [List.flatten_append]
        exact Loads.append hloaded hloaded'

/-- Pass two books every record of the documents that the pages hold. -/
theorem load_ok {docs : List Json}
    (hdocs : List.Forall₂ (Holds stager.files) (stager.pages p.own) docs)
    (h : stager.load.run p = (.ok n, p')) :
    ∃ batches, List.Forall₂ (BatchesOf stager p.own.table) (docs.flatMap recordArrays) batches ∧
      n = (recordsOfAll docs).length ∧
      Moves p.own.table.name
        ((inserted (stager.inserter p.own.table) batches.flatten).add { loaded := n })
        { p.own with statements := p.own.statements + batches.flatten.length } p p' := by
  obtain ⟨own, p₁, hown, h⟩ := Run.bind_ok h
  obtain ⟨rfl, rfl⟩ := Run.pure_ok (a := p.own) (s := p) hown
  obtain ⟨n₁, p₂, hpages, h⟩ := Run.bind_ok h
  rw [Run.run_bind_ok (Run.run_count _ _ _)] at h
  obtain ⟨rfl, rfl⟩ := Run.pure_ok h
  obtain ⟨batches, hof, hn, hloaded⟩ := loadPages_ok hdocs hpages
  have hcount := books_note p.own.table.name
    (.counted (.recordsProcessed p.own.table.name Pass.load.name) n₁) p₂
  rw [Pass.name, ledger_loaded] at hcount
  exact ⟨batches, hof, by rw [hn, Nat.zero_add], hloaded.books hcount⟩

end Staging.Stage
