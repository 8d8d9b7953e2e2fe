import Staging.Proofs.Page.Breaks
import Staging.Proofs.Stage.Failures
import Staging.Proofs.Stage.Order

/-!
# What staging a table fails in

Most failures lie in the data: the page count, the pages, the schema, and records without an
identifier. Three things can go wrong besides (`Foreign`): the database fails, a string on a page is
no text, and a value does not go into a column that the table had before. There is nothing else
(`stage_cause`).
-/

namespace Staging.Sql.Encoder

open Schema

variable {e : Encoder} {c : Column} {v record : Json} {failure : Failure}

/-! ## Rows -/

theorem number_of_mapError {α β : Type} {x : Except Number.Fault α} {f : α → β}
    (h : (x.mapError Failure.number).map f = .error failure) :
    ∃ fault, failure = .number fault := by
  cases x with
  | error fault => exact ⟨fault, (Except.error.inj h).symm⟩
  | ok a => cases h

/-- A value fails only as a number. -/
theorem encodeValue_error (h : e.encodeValue c v = .error failure) :
    ∃ fault, failure = .number fault := by
  rw [encodeValue.eq_def] at h
  split at h
  · cases h
  · exact number_of_mapError h
  · cases h
  · exact number_of_mapError h
  · cases h

theorem gathered_error {cells : List (Except Failure Cell)}
    (h : (cells.foldr Row.cons ⟨[], .ok []⟩).outcome = .error failure) :
    .error failure ∈ cells := by
  induction cells with
  | nil => cases h
  | cons cell cells ih =>
      rw [List.foldr_cons] at h
      cases cell with
      | error other =>
          obtain rfl := Except.error.inj h
          exact List.mem_cons_self
      | ok cell =>
          rw [Row.cons] at h
          refine List.mem_cons_of_mem _ (ih ?_)
          exact Run.map_eq_error.mp h

/-- A row fails for want of an identifier or as one of its numbers does. -/
theorem rowText_error (h : e.rowText record = .error failure) :
    failure = .missingId e.table.name ∨ ∃ fault, failure = .number fault := by
  unfold rowText at h
  split at h
  · exact .inl (Except.error.inj h).symm
  · rename_i id _
    refine .inr ?_
    have hcell := gathered_error (Run.map_eq_error.mp h)
    rw [cells, List.mem_append, List.mem_cons, List.mem_map] at hcell
    rcases hcell with (hcell | ⟨c, -, hcell⟩) | hcell
    · cases hcell
    · exact encodeValue_error hcell
    · simp at hcell

end Staging.Sql.Encoder

namespace Staging.Stage

open Sql Page Schema

variable {stager : Stager} {p p' : Session Progress} {P : Failure → Prop} {failure : Failure}

/-! ## Pass one -/

theorem failsOnly_analyzePage {path : String}
    (hpage : ∀ failure, failure? stager.files path = some failure → P failure)
    (statistics : Statistics) : Run.FailsOnly P (stager.analyzePage statistics path) := by
  refine Run.FailsOnly.bind ?_ fun _ => ?_
  · exact Run.failsOnly_own.bind fun _ => Run.failsOnly_log _ _ _ _
  · refine failsOnly_read_any (fun statistics item => ?_) hpage statistics
    cases item <;> exact Run.failsOnly_pure _

section

variable (hpages : ∀ path ∈ stager.pages p.own, ∀ failure,
  failure? stager.files path = some failure → P failure)

include hpages

/-- Pass one fails only where a page does. -/
theorem analyze_error (h : stager.analyze.run p = (.error failure, p')) : P failure := by
  rw [Stager.analyze, Run.run_bind_ok (Run.run_own p)] at h
  obtain h | ⟨statistics, p₁, -, h⟩ := Run.bind_error h
  · exact Run.FailsOnly.foldlM (fun path hpath => failsOnly_analyzePage (hpages path hpath)) {} p
      failure p' h
  · rw [Run.run_bind_ok (Run.run_count _ _ _)] at h
    cases h

theorem survey_error (h : stager.survey.run p = (.error failure, p')) : P failure := by
  obtain ⟨p₁, henter, hentered, -⟩ := run_enter .analyze p
  rw [Stager.survey, Run.run_bind_ok henter] at h
  obtain h | ⟨statistics, p₂, -, h⟩ := Run.bind_error h
  · obtain ⟨p₂, p₃, hbooks, hanalyze⟩ := timedPass_error p.own.table.name h
    have hsame : stager.pages p₂.own = stager.pages p.own := by
      rw [hbooks.own, hentered.pages_eq]
    exact analyze_error (hsame ▸ hpages) hanalyze
  · rw [Run.run_bind_ok (Run.run_own p₂)] at h
    obtain h | ⟨⟨⟩, p₃, -, h⟩ := Run.bind_error h
    · exact Run.FailsOnly.forM (fun _ _ => Run.failsOnly_log _ _ _ _) p₂ failure p' h
    · obtain ⟨p₄, henter, -, -⟩ := run_enter .buildSchema p₃
      rw [Run.run_bind_ok henter] at h
      cases h

end

/-! ## Causes -/

/-- A page of a table, as its count file says. -/
def Stager.IsPage (s : Stager) (table path : String) : Prop :=
  ∃ octets count, s.files (Files.countFile s.loadDir table) = .file octets ∧
    Files.pageCount? octets = some count ∧ path ∈ Files.pages s.files s.loadDir table count

/-- What can go wrong with a table besides its data. -/
inductive Foreign (stager : Stager) (t : Table) : Failure → Prop
  | database {n : Nat} (h : stager.executor.failAt = some n) : Foreign stager t (.database n)
  | nonText {path : String} {fault : Text.Utf8.Fault} (hpage : stager.IsPage t.name path)
    (h : HoldsNonText stager.files path fault) : Foreign stager t (.undecodable fault)
  | number {fault : Number.Fault} (h : t.columns ≠ []) : Foreign stager t (.number fault)

theorem Foreign.not_staging {t : Table} (h : Foreign stager t failure) :
    failure.isStaging = false := by
  cases h <;> rfl

/-- A failure of the data or another one that is known. -/
def IsKnown (stager : Stager) (t : Table) (failure : Failure) : Prop :=
  failure.isStaging = true ∨ Foreign stager t failure

theorem isKnown_database (stager : Stager) (t : Table) :
    Run.DatabaseFailsOnly (IsKnown stager t) stager.executor :=
  fun _ h => .inr (.database h)

theorem isKnown_page {t : Table} {path : String} (hpage : stager.IsPage t.name path)
    (h : failure? stager.files path = some failure) : IsKnown stager t failure := by
  rcases failure?_cases h with hfault | ⟨fault, rfl, hnon⟩
  · refine .inl ?_
    simp only [List.mem_cons, List.not_mem_nil, or_false] at hfault
    rcases hfault with rfl | rfl | rfl <;> rfl
  · exact .inr (.nonText hpage hnon)

/-- Under the schema of all records, a row fails for want of an identifier, unless the table had
columns before. -/
theorem isKnown_row {t : Table} {paths : List String} {docs : List Json} {columns : List Column}
    (hdocs : List.Forall₂ (Holds stager.files) paths docs)
    (hinfer : infer t (Statistics.of (recordsOfAll docs)).fields = ⟨columns, none⟩)
    {record : Json} (hrecord : record ∈ recordsOfAll docs)
    (hrow : rowOf stager { t with columns := t.columns ++ columns } record = .error failure) :
    IsKnown stager t failure := by
  by_cases hcolumns : t.columns = []
  · rw [hcolumns, List.nil_append] at hrow
    obtain ⟨rfl, -⟩ := lacksId_of_row hdocs hinfer hrecord hrow
    exact .inl rfl
  · rcases Encoder.rowText_error hrow with rfl | ⟨fault, rfl⟩
    · exact .inl rfl
    · exact .inr (.number hcolumns)

/-- Once the schema is there, a table fails as the rows of its records do, or as the database does.
-/
theorem createAndFill_error {docs : List Json}
    (hdatabase : Run.DatabaseFailsOnly P stager.executor)
    (hdocs : List.Forall₂ (Holds stager.files) (stager.pages p.own) docs)
    (hrow : ∀ record ∈ recordsOfAll docs,
      ∀ failure, rowOf stager p.own.table record = .error failure → P failure)
    (h : (do enter .createTable; stager.fill : Run Progress Unit).run p = (.error failure, p')) :
    P failure := by
  obtain ⟨p₁, henter, hentered, -⟩ := run_enter .createTable p
  rw [Run.run_bind_ok henter] at h
  rw [← hentered.pages_eq] at hdocs
  rw [← hentered.table] at hrow
  exact fill_error hdatabase hdocs hrow h

theorem takePasses_cause
    (hpages : ∀ path ∈ stager.pages p.own, stager.IsPage p.own.table.name path)
    (h : stager.takePasses.run p = (.error failure, p')) : IsKnown stager p.own.table failure := by
  have hsurveyed : ∃ notes, Reaches notes p (stager.survey.run p).2 :=
    (follows_survey stager p).imp fun _ hfollowed => hfollowed.1
  rw [takePasses_eq_survey] at h
  obtain h | ⟨statistics, p₁, hsurvey, h⟩ := Run.bind_error h
  · exact survey_error (fun path hpath _ => isKnown_page (hpages path hpath)) h
  rw [hsurvey] at hsurveyed
  obtain ⟨notes, hsurveyed⟩ := hsurveyed
  obtain ⟨docs, hdocs, rfl⟩ := survey_ok hsurvey
  obtain ⟨p₂, -, hown, hbuild⟩ := run_buildSchema (Statistics.of (recordsOfAll docs)) p₁
  rw [hsurveyed.table] at hbuild
  cases hinfer : infer p.own.table (Statistics.of (recordsOfAll docs)).fields with
  | mk columns fault =>
  rw [hsurveyed.table, learnt, hinfer] at hown
  rw [hinfer] at hbuild
  cases fault with
  | some fault =>
      rw [Run.run_bind_error hbuild] at h
      cases h
      exact .inl rfl
  | none =>
      rw [Run.run_bind_ok hbuild] at h
      have htable : p₂.own.table
          = { p.own.table with columns := p.own.table.columns ++ columns } := by
        rw [hown, ← hsurveyed.table]
        rfl
      have hsame : stager.pages p₂.own = stager.pages p.own := by
        rw [← hsurveyed.pages_eq, hown]
        rfl
      refine createAndFill_error (isKnown_database stager p.own.table) (hsame ▸ hdocs)
        (fun record hrecord failure hrow => ?_) h
      rw [htable] at hrow
      exact isKnown_row hdocs hinfer hrecord hrow

theorem failsOnly_readPageCount {σ : Type} (files : Directory) (dir name : String) :
    Run.FailsOnly (·.isStaging = true) (readPageCount files dir name : Run σ Int) := by
  unfold readPageCount
  simp only
  split
  · exact (Run.failsOnly_log _ _ _ _).bind fun _ => Run.failsOnly_pure _
  · exact Run.failsOnly_throw rfl
  · split
    · exact Run.failsOnly_pure _
    · exact Run.failsOnly_throw rfl

theorem proceed_cause (h : stager.proceed.run p = (.error failure, p')) :
    IsKnown stager p.own.table failure := by
  have hcounting := logs_readPageCount stager.files stager.loadDir p.own.table.name p
  cases hcount : (readPageCount stager.files stager.loadDir p.own.table.name).run p with
  | mk outcome p₁ =>
  rw [hcount] at hcounting
  cases outcome with
  | error other =>
      unfold Stager.proceed at h
      rw [Run.run_bind_ok (Run.run_own p), Run.run_bind_error hcount] at h
      cases h
      exact .inl (failsOnly_readPageCount _ _ _ p failure _ hcount)
  | ok count =>
      obtain ⟨p₂, hlogs, hrun⟩ := run_proceed hcount
      have hown : p₂.own = { p.own with pageCount := count } := by
        rw [hlogs.own, hcounting.own]
      rw [hrun] at h
      split at h
      · obtain ⟨p₃, hskip, -⟩ := run_skip p₂
        rw [hskip] at h
        cases h
      · rename_i hpositive
        obtain ⟨⟨octets, hfile, hread⟩, -⟩ := readPageCount_ok hcount hpositive
        have hcause := takePasses_cause (p := p₂) (fun path hpath => ?_) h
        · rwa [hown] at hcause
        · rw [hown] at hpath ⊢
          exact ⟨octets, count, hfile, hread, hpath⟩

/-- Staging a table fails over its data, or in one of three other ways. -/
theorem stage_cause (h : stager.stage.run p = (.error failure, p')) :
    IsKnown stager p.own.table failure := by
  obtain ⟨p₁, hproceed, -⟩ := stage_failed h
  exact proceed_cause (p := { p with table := some p.own.table.name }) hproceed

end Staging.Stage
