import Staging.Proofs.Number.Integer
import Staging.Proofs.Stage.Course

/-!
# The count file as a gate

Whether a table is staged is up to the first word of its count file. Without a count file, or with a
count of zero, the table is skipped; over a count file that gives no number it is given up. Either
way no page is opened and no statement is sent (`stage_gated`). A count below zero opens the gate
like one above it.
-/

namespace Staging.Text

variable {text word : List Char}

/-- The word is the first run of characters of the text that are not blank. -/
def IsFirstWord (text word : List Char) : Prop :=
  ∃ before after, text = before ++ (word ++ after) ∧ (∀ c ∈ before, isBlank c = true) ∧
    word ≠ [] ∧ (∀ c ∈ word, isBlank c = false) ∧ ∀ c ∈ after.head?, isBlank c = true

theorem firstWord?_eq_some_iff : firstWord? text = some word ↔ IsFirstWord text word := by
  unfold firstWord?
  constructor
  · intro h
    split at h
    · cases h
    · rename_i hne
      obtain rfl := Option.some.inj h
      refine ⟨text.takeWhile isBlank, (text.dropWhile isBlank).dropWhile (!isBlank ·), ?_,
        fun c hc => List.mem_takeWhile_imp hc, hne,
        fun c hc => by simpa using List.mem_takeWhile_imp hc, fun c hc => ?_⟩
      · rw [List.takeWhile_append_dropWhile, List.takeWhile_append_dropWhile]
      · have hhead := List.head?_dropWhile_not (!isBlank ·) (text.dropWhile isBlank)
        rw [hc] at hhead
        simpa using hhead
  · rintro ⟨before, after, rfl, hbefore, hne, hword, hafter⟩
    have hdrop : (word ++ after).dropWhile isBlank = word ++ after := by
      obtain ⟨c, rest, rfl⟩ := List.exists_cons_of_ne_nil hne
      exact List.dropWhile_cons_of_neg (by simp [hword c List.mem_cons_self])
    have hstop : after.takeWhile (!isBlank ·) = [] := by
      cases after with
      | nil => rfl
      | cons c after => exact List.takeWhile_cons_of_neg (by simp [hafter c rfl])
    rw [List.dropWhile_append_of_pos hbefore, hdrop,
      List.takeWhile_append_of_pos (by simpa using hword), hstop, List.append_nil]
    split
    · exact absurd rfl hne
    · rfl

end Staging.Text

namespace Staging.Files

open Number Text

variable {octets : List UInt8} {n : Int}

/-- The octets are a text, and its first word writes the number. -/
def Announces (octets : List UInt8) (n : Int) : Prop :=
  ∃ text word, Utf8.decode octets = .ok text ∧ IsFirstWord text word ∧ Writes word n

theorem pageCount?_eq_some_iff : pageCount? octets = some n ↔ Announces octets n := by
  simp only [pageCount?, Option.bind_eq_bind, Option.bind_eq_some_iff, Run.toOption_eq_some_iff,
    firstWord?_eq_some_iff, Announces]
  constructor
  · rintro ⟨text, htext, word, hword, hread⟩
    obtain ⟨-, -, -, -, -, hnonblank, -⟩ := id hword
    exact ⟨text, word, htext, hword, (readInt_eq_ok_iff hnonblank).mp hread⟩
  · rintro ⟨text, word, htext, hword, hwrites⟩
    obtain ⟨-, -, -, -, -, hnonblank, -⟩ := id hword
    exact ⟨text, htext, word, hword, (readInt_eq_ok_iff hnonblank).mpr hwrites⟩

end Staging.Files

namespace Staging.Stage

open Schema

variable {σ : Type} {stager : Stager} {table : String} {p p' : Session Progress} {n m : Int}

/-! ## Counting -/

/-- What is found where the count file of a table belongs. -/
def Stager.countEntry (s : Stager) (table : String) : Entry :=
  s.files (Files.countFile s.loadDir table)

/-- The count file of the table begins with the number. -/
def Stager.Counts (s : Stager) (table : String) (n : Int) : Prop :=
  ∃ octets, s.countEntry table = .file octets ∧ Files.Announces octets n

theorem counts_iff {octets : List UInt8} (hentry : stager.countEntry table = .file octets) :
    stager.Counts table n ↔ Files.pageCount? octets = some n := by
  rw [Files.pageCount?_eq_some_iff]
  constructor
  · rintro ⟨octets', hfile, hannounces⟩
    obtain rfl := Entry.file.inj (hentry.symm.trans hfile)
    exact hannounces
  · exact fun hannounces => ⟨octets, hentry, hannounces⟩

theorem counts_unique (h : stager.Counts table n) (h' : stager.Counts table m) : n = m := by
  obtain ⟨octets, hentry, -⟩ := id h
  rw [counts_iff hentry] at h h'
  exact Option.some.inj (h.symm.trans h')

/-- What is no file has no first word. -/
theorem not_counts (hentry : ∀ octets, stager.countEntry table ≠ .file octets) :
    ¬stager.Counts table n := by
  rintro ⟨octets, hfile, -⟩
  exact hentry octets hfile

/-- What counting the pages of a table comes to. -/
inductive IsCounted (stager : Stager) (table : String) : Except Failure Int → Prop
  | missing (hmissing : stager.countEntry table = .missing) : IsCounted stager table (.ok 0)
  | announced {n : Int} (hcounts : stager.Counts table n) : IsCounted stager table (.ok n)
  | unreadable (hthere : stager.countEntry table ≠ .missing)
    (hnone : ∀ n, ¬stager.Counts table n) :
    IsCounted stager table (.error (.unreadableCount (Files.countFile stager.loadDir table)))

theorem isCounted (stager : Stager) (table : String) (s : Session σ) :
    IsCounted stager table ((readPageCount stager.files stager.loadDir table).run s).1 := by
  unfold readPageCount
  simp only
  split <;> rename_i hentry
  · exact .missing hentry
  · have hfolder : stager.countEntry table = .folder := hentry
    exact .unreadable (by simp [hfolder]) fun n => not_counts (by simp [hfolder])
  · have hfile : stager.countEntry table = .file _ := hentry
    split <;> rename_i hread
    · exact .announced ((counts_iff hfile).mpr hread)
    · refine .unreadable (by simp [hfile]) fun n hcounts => ?_
      cases hread.symm.trans ((counts_iff hfile).mp hcounts)

/-! ## Leaving pages and database alone -/

/-- Whether a page was opened or a statement sent. -/
def isTouch : Note → Bool
  | .executed _ | .refused _ | .opened _ => true
  | _ => false

/-- No page was opened and no statement sent. -/
structure Untouched (s s' : Session σ) : Prop where
  sent : s'.sent = s.sent
  touches : s'.journal.toList.filter isTouch = s.journal.toList.filter isTouch

theorem chain_untouched : Run.Chain (Untouched (σ := σ)) where
  refl _ := ⟨rfl, rfl⟩
  trans h h' := ⟨h'.sent.trans h.sent, h'.touches.trans h.touches⟩

theorem untouched_note {n : Note} (h : isTouch n = false) :
    Run.Along Untouched (Run.note n : Run σ Unit) := by
  refine fun s => ⟨rfl, ?_⟩
  rw [Run.run_note, Array.toList_push, List.filter_append, List.filter_cons_of_neg (by simp [h])]
  exact List.append_nil _

theorem untouched_of_logs {s s' : Session σ} (h : Run.Logs s s') : Untouched s s' := by
  obtain ⟨hsent, -, -, records, hjournal⟩ := h
  have hnone : (records.map Note.logged).filter isTouch = [] := by
    simp [isTouch]
  exact ⟨hsent, by rw [hjournal, List.filter_append, hnone, List.append_nil]⟩

theorem untouched_modifyOwn (f : σ → σ) : Run.Along Untouched (Run.modifyOwn f) :=
  fun _ => ⟨rfl, rfl⟩

theorem untouched_focus (table : Option String) :
    Run.Along Untouched (Run.focus table : Run σ Unit) :=
  fun _ => ⟨rfl, rfl⟩

theorem untouched_enter (phase : Phase) : Run.Along Untouched (enter phase) :=
  chain_untouched.bind chain_untouched.own fun _ =>
    chain_untouched.bind (fun s => untouched_of_logs (Run.logs_log _ _ _ _ s)) fun _ =>
      chain_untouched.bind (untouched_note rfl) fun _ => untouched_modifyOwn _

theorem untouched_skip : Run.Along Untouched Stager.skip :=
  chain_untouched.bind (untouched_modifyOwn _) fun _ =>
    chain_untouched.bind (untouched_enter _) fun _ => untouched_note rfl

/-- Around the passes staging touches nothing. -/
theorem untouched_stage
    (h : Untouched { p with table := some p.own.table.name }
      (stager.proceed.run { p with table := some p.own.table.name }).2) :
    Untouched p (stager.stage.run p).2 := by
  unfold Stager.stage
  rw [Run.run_bind_ok (Run.run_own p), Run.run_bind_ok (Run.run_focus _ _)]
  refine chain_untouched.trans (untouched_focus (some p.own.table.name) p) ?_
  refine chain_untouched.bind_run (x := Run.attempt stager.proceed) h fun outcome p' _ => ?_
  cases outcome with
  | ok _ =>
      exact chain_untouched.bind (untouched_focus _)
        (fun _ => chain_untouched.bind chain_untouched.own fun _ => chain_untouched.pure _) p'
  | error failure =>
      have hrest : Run.Along Untouched (do Run.focus none; throw failure : Run Progress Result) :=
        chain_untouched.bind (untouched_focus _) fun _ => chain_untouched.throw _
      dsimp only
      split
      · exact chain_untouched.bind (untouched_enter _)
          (fun _ => chain_untouched.bind (untouched_note rfl) fun _ => hrest) p'
      · exact hrest p'

/-! ## The gate -/

variable {outcome : Except Failure Result}

/-- The table was skipped. -/
structure PassedOver (p p' : Session Progress) (outcome : Except Failure Result) : Prop where
  outcome : outcome = .ok p'.own.result
  phase : p'.own.phase = .skipped
  table : p'.own.table = { p.own.table with skip := true }
  course : course p' = course p ++ passing
  untouched : Untouched p p'

/-- The table was given up with this failure. -/
structure GivenUp (failure : Failure) (p p' : Session Progress)
    (outcome : Except Failure Result) : Prop where
  outcome : outcome = .error failure
  phase : p'.own.phase = .failed
  table : p'.own.table = p.own.table
  course : course p' = course p ++ abandonment
  untouched : Untouched p p'

section

variable {p₁ : Session Progress}

/-- Where no page is counted, skipping the table is all that is left to do. -/
theorem proceed_skips
    (hcount : (readPageCount stager.files stager.loadDir p.own.table.name).run p = (.ok 0, p₁)) :
    ∃ p', stager.proceed.run p = (.ok (), p') ∧ course p' = course p ++ passing ∧
      p'.own = { p.own with pageCount := 0, phase := .skipped, table.skip := true } ∧
      Untouched p p' := by
  have hcounting := logs_readPageCount stager.files stager.loadDir p.own.table.name p
  rw [hcount] at hcounting
  obtain ⟨p₂, hlogs, hproceed⟩ := run_proceed hcount
  obtain ⟨p₃, hskip, hpassed, hown⟩ := run_skip p₂
  have hskipping := untouched_skip p₂
  have hlogged := untouched_of_logs hlogs
  have hcounted : Untouched p₁ p₂ := ⟨hlogged.sent, hlogged.touches⟩
  rw [hskip] at hskipping
  refine ⟨p₃, ?_, ?_, ?_, chain_untouched.trans (untouched_of_logs hcounting)
    (chain_untouched.trans hcounted hskipping)⟩
  · rw [hproceed, if_pos rfl, hskip]
  · have hcourse : course p₂ = course p :=
      (course_of_logs hlogs).trans (course_of_logs hcounting :)
    rw [hpassed, hcourse]
  · rw [hown, hlogs.own, hcounting.own]

/-- A table without pages is skipped. -/
theorem stage_passedOver
    (hcount : (readPageCount stager.files stager.loadDir p.own.table.name).run
      { p with table := some p.own.table.name } = (.ok 0, p₁)) :
    PassedOver p (stager.stage.run p).2 (stager.stage.run p).1 := by
  obtain ⟨p₂, hproceed, hcourse, hown, hskipping⟩ :=
    proceed_skips (p := { p with table := some p.own.table.name }) hcount
  obtain ⟨p₃, hstage, hended, hphase, htable, -⟩ := run_stage stager hproceed
  have huntouched : Untouched p (stager.stage.run p).2 :=
    untouched_stage (by rwa [hproceed])
  rw [hstage] at huntouched ⊢
  refine ⟨rfl, ?_, ?_, ?_, huntouched⟩
  · rw [hphase, hown]
    rfl
  · rw [htable, hown]
  · rw [hended, hcourse]
    exact List.append_nil _

/-- A table whose pages cannot be counted is given up. -/
theorem stage_givenUp {failure : Failure} (hstaging : failure.isStaging = true)
    (hcount : (readPageCount stager.files stager.loadDir p.own.table.name).run
      { p with table := some p.own.table.name } = (.error failure, p₁)) :
    GivenUp failure p (stager.stage.run p).2 (stager.stage.run p).1 := by
  have hcounting := logs_readPageCount stager.files stager.loadDir p.own.table.name
    { p with table := some p.own.table.name }
  rw [hcount] at hcounting
  have hproceed : stager.proceed.run { p with table := some p.own.table.name }
      = (.error failure, p₁) := by
    unfold Stager.proceed
    rw [Run.run_bind_ok (Run.run_own _), Run.run_bind_error hcount]
  obtain ⟨p₂, hstage, hended, hphase, htable, -⟩ := run_stage stager hproceed
  have huntouched : Untouched p (stager.stage.run p).2 :=
    untouched_stage (by rw [hproceed]; exact untouched_of_logs hcounting)
  rw [hstage] at huntouched ⊢
  rw [ending, if_pos hstaging] at hended hphase
  refine ⟨rfl, hphase, ?_, ?_, huntouched⟩
  · rw [htable, hcounting.own]
  · rw [hended, course_of_logs hcounting]
    rfl

end

/-- No page is opened and no statement sent unless the count file begins with a number other than
zero. Without a count file, and with one that begins with zero, the table is skipped; with any
other that begins with no number it is given up. -/
theorem stage_gated (h : stager.stage.run p = (outcome, p')) :
    (¬Untouched p p' → ∃ n, n ≠ 0 ∧ stager.Counts p.own.table.name n) ∧
    (stager.countEntry p.own.table.name = .missing ∨ stager.Counts p.own.table.name 0 →
      PassedOver p p' outcome) ∧
    (stager.countEntry p.own.table.name ≠ .missing → (∀ n, ¬stager.Counts p.own.table.name n) →
      GivenUp (.unreadableCount (Files.countFile stager.loadDir p.own.table.name)) p p'
        outcome) := by
  have hcounted := isCounted stager p.own.table.name { p with table := some p.own.table.name }
  have hpassed : ∀ p₁, (readPageCount stager.files stager.loadDir p.own.table.name).run
      { p with table := some p.own.table.name } = (.ok 0, p₁) → PassedOver p p' outcome := by
    intro p₁ hcount
    have hpassed := stage_passedOver hcount
    rwa [h] at hpassed
  cases hcount : (readPageCount stager.files stager.loadDir p.own.table.name).run
      { p with table := some p.own.table.name } with
  | mk count p₁ =>
  rw [hcount] at hcounted
  cases hcounted with
  | missing hmissing =>
      have hskipped := hpassed p₁ hcount
      exact ⟨fun htouched => absurd hskipped.untouched htouched, fun _ => hskipped,
        fun hthere => absurd hmissing hthere⟩
  | @announced n hcounts =>
      refine ⟨fun htouched => ⟨n, ?_, hcounts⟩, fun hzero => ?_,
        fun _ hnone => absurd hcounts (hnone n)⟩
      · rintro rfl
        exact htouched (hpassed p₁ hcount).untouched
      · rcases hzero with hmissing | hzero
        · exact absurd hcounts (not_counts (by simp [hmissing]))
        · obtain rfl := counts_unique hcounts hzero
          exact hpassed p₁ hcount
  | unreadable hthere hnone =>
      have hfailed := stage_givenUp rfl hcount
      rw [h] at hfailed
      refine ⟨fun htouched => absurd hfailed.untouched htouched, fun hzero => ?_,
        fun _ _ => hfailed⟩
      rcases hzero with hmissing | hzero
      · exact absurd hmissing hthere
      · exact absurd hzero (hnone 0)

/-- A test page and a count file with this text. -/
def countedFiles (text : String) : Directory := fun path =>
  if path = "/d/notes_count.txt" then .file text.toUTF8.toList
  else if path = "/d/notes_test.json" then .file "[\x7b\"id\":\"a\"\x7d]".toUTF8.toList
  else .missing

def countedStager (text : String) : Stager := { noteStager with files := countedFiles text }

theorem countFile_notes : Files.countFile "/d" "notes" = "/d/notes_count.txt" := by decide +kernel

theorem countedStager_entry (text : String) :
    (countedStager text).countEntry "notes" = .file text.toUTF8.toList :=
  if_pos countFile_notes

theorem counts_of_read {text : String} (h : Files.pageCount? text.toUTF8.toList = some n) :
    (countedStager text).Counts "notes" n :=
  (counts_iff (countedStager_entry text)).mpr h

/-- A test page makes no difference to a count of zero, nor to a count file without a number. -/
theorem testPage_gated :
    (∃ n, n ≠ 0 ∧ noteStager.Counts "notes" n) ∧
    PassedOver { own := { table := noteTable } }
      ((countedStager "+0 pages").stage.start { table := noteTable }).2
      ((countedStager "+0 pages").stage.start { table := noteTable }).1 ∧
    GivenUp (.unreadableCount (Files.countFile "/d" "notes")) { own := { table := noteTable } }
      ((countedStager "\n no pages").stage.start { table := noteTable }).2
      ((countedStager "\n no pages").stage.start { table := noteTable }).1 := by
  have hstart : ∀ s : Stager, s.stage.run { own := { table := noteTable } }
      = s.stage.start { table := noteTable } := fun _ => rfl
  refine ⟨?_, ?_, ?_⟩
  · refine (stage_gated (hstart noteStager)).1 fun h => ?_
    have hsent : (noteStager.stage.start { table := noteTable }).2.sent ≠ 0 := by decide +kernel
    exact hsent h.sent
  · exact (stage_gated (hstart (countedStager "+0 pages"))).2.1
      (.inr (counts_of_read (by decide +kernel)))
  · have hnumberless : Files.pageCount? "\n no pages".toUTF8.toList = none := by decide +kernel
    have hentry := countedStager_entry "\n no pages"
    refine (stage_gated (hstart (countedStager "\n no pages"))).2.2 (fun hmissing => ?_)
      fun n hcounts => ?_
    · cases hentry.symm.trans hmissing
    · cases hnumberless.symm.trans ((counts_iff hentry).mp hcounts)

/-- A negative count has a table created and filled from its test page. -/
theorem negative_staged :
    (countedStager "-1").Counts "notes" (-1) ∧
    (∀ n, (countedStager "-1").Counts "notes" n → n < 1) ∧
    ((countedStager "-1").stage.start { table := noteTable }).2.own.phase = .done ∧
    (Journal.statements
      ((countedStager "-1").stage.start { table := noteTable }).2.journal.toList).length = 6 := by
  have hcounts : (countedStager "-1").Counts "notes" (-1) := counts_of_read (by decide +kernel)
  refine ⟨hcounts, fun n h => ?_, by decide +kernel, by decide +kernel⟩
  rw [counts_unique h hcounts]
  decide

end Staging.Stage
