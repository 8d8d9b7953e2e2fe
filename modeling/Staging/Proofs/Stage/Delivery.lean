import Mathlib.Data.List.Infix
import Staging.Proofs.Page.Breaks
import Staging.Proofs.Page.Prefix
import Staging.Proofs.Sql.Batching
import Staging.Proofs.Stage.Conservation

/-!
# What a page has delivered where it breaks off

A page that breaks off has delivered the records that its events had closed by then, and no others
(`ofOctets_cut`). The reader sees them all unless it fails itself (`read_visits`). Loading writes
only to a batch that was begun since the last one was finished, and leaves no tuple behind in a page
that is whole (`prefix_delivers`).
-/

namespace Staging.Page

/-! ## Items in groups -/

theorem before_record_of_array {α : Type} {records : List α} {seen rest : List (Item α)} {r : α}
    (h : arrayItems records = seen ++ .record r :: rest) :
    ∃ before : List α, seen = .arrayStart :: before.map .record := by
  cases seen with
  | nil => cases (List.cons.inj h).1
  | cons item seen =>
      obtain rfl := (List.cons.inj h).1
      have hitems : records.map .record ++ [.arrayEnd] = seen ++ .record r :: rest :=
        (List.cons.inj h).2
      rcases List.append_eq_append_iff.mp hitems with ⟨more, rfl, hend⟩ | ⟨more, hrecords, -⟩
      · rcases more with _ | ⟨_, _⟩ <;> simp at hend
      · obtain ⟨before, _, -, rfl, -⟩ := List.map_eq_append_iff.mp hrecords
        exact ⟨before, rfl⟩

/-- Before a record stand whole arrays and the beginning of its own. -/
theorem before_record {α : Type} {arrays : List (List α)} {seen rest : List (Item α)} {r : α}
    (h : arrays.flatMap arrayItems = seen ++ .record r :: rest) :
    ∃ (before : List (List α)) (records : List α),
      seen = before.flatMap arrayItems ++ .arrayStart :: records.map .record := by
  induction arrays generalizing seen with
  | nil => simp at h
  | cons records arrays ih =>
      rw [List.flatMap_cons] at h
      rcases List.append_eq_append_iff.mp h with ⟨more, rfl, hmore⟩ | ⟨more, harray, hmore⟩
      · obtain ⟨before, last, rfl⟩ := ih hmore
        exact ⟨records :: before, last, by rw [List.flatMap_cons, List.append_assoc]⟩
      · cases more with
        | nil => cases arrays <;> cases hmore
        | cons item more =>
            obtain ⟨rfl, -⟩ := List.cons.inj hmore
            obtain ⟨before, rfl⟩ := before_record_of_array harray
            exact ⟨[], before, rfl⟩

/-! ## As far as a page goes -/

/-- As far as it goes, the page is the beginning of this document. -/
structure Begins (octets : List UInt8) (doc : Json) : Prop where
  range : doc.inRange = true
  events : (events octets).1 <+: Event.ofJson doc

theorem exists_begins (octets : List UInt8) : ∃ doc, Begins octets doc := by
  obtain ⟨doc, more, hrange, hes, -⟩ :=
    ofJson_of_events (Prod.ext rfl rfl : events octets = ((events octets).1, (events octets).2))
  exact ⟨doc, hrange, more, hes⟩

/-- There are as many records as there are texts of records. -/
theorem length_records_parsed {texts : List (Item String)} {items : List (Item Json)}
    (h : texts.mapM Item.parsed = .ok items) :
    (items.filterMap Item.record?).length = (texts.filterMap Item.record?).length := by
  induction texts generalizing items with
  | nil =>
      obtain rfl := Except.ok.inj h
      rfl
  | cons text texts ih =>
      obtain ⟨item, more, hitem, hmore, rfl⟩ := mapM_cons_ok h
      have hlengths := ih hmore
      cases text with
      | record text =>
          rw [Item.parsed] at hitem
          cases hread : readRecord text with
          | error failure =>
              rw [hread] at hitem
              cases hitem
          | ok r =>
              rw [hread] at hitem
              obtain rfl := Except.ok.inj hitem
              exact congrArg Nat.succ hlengths
      | arrayStart | arrayEnd =>
          obtain rfl := Except.ok.inj hitem
          exact hlengths

/-- A page delivers the first items of its document, with just as many of the document's records as
its events had closed when it broke off. -/
theorem ofOctets_cut {octets : List UInt8} {doc : Json} (h : Begins octets doc) (path : String) :
    ∃ texts items,
      Content.ofOctets path octets = ⟨texts, (events octets).2.map (Break.failure path)⟩ ∧
      texts.mapM Item.parsed = .ok items ∧ items <+: documentItems doc ∧
      items.filterMap Item.record?
        = (recordArrays doc).flatten.take (recordsClosed [] (events octets).1) := by
  obtain ⟨-, texts, a, -, hfeed, -, -, hcount, arrays, hall, htexts⟩ :=
    Assembly.feedAll_prefix h.events
  obtain ⟨root, arrayDepth, hwhole⟩ := Assembly.feedAll_texts h.range
  rw [Assembly.itemsFrom_of_feedAll hwhole] at hall
  rw [← (Prod.mk.inj hall).1] at htexts
  obtain ⟨items, hitems, hprefix⟩ := mapM_prefix htexts (Assembly.parsed_documentTexts h.range)
  refine ⟨texts, items, ?_, hitems, hprefix, ?_⟩
  · rw [Content.ofOctets]
    simp only [Assembly.itemsFrom_of_feedAll hfeed]
  · have hrecords := hprefix.filterMap Item.record?
    rw [records_documentItems] at hrecords
    rw [List.prefix_iff_eq_take.mp hrecords, length_records_parsed hitems, hcount]

/-! ## The reader -/

section

variable {σ β : Type} {visit : β → Item Json → Run σ β} {b : β} {s s' : Session σ}

/-- The outcome of a page whose items were all visited. -/
def ending (broken : Option Failure) (b : β) : Except Failure β :=
  match broken with
  | none => .ok b
  | some failure => .error failure

/-- The visit of one of the items fails, after all items before it were visited. -/
def StopsAt (visit : β → Item Json → Run σ β) (b : β) (s : Session σ) (items : List (Item Json))
    (failure : Failure) (s' : Session σ) : Prop :=
  ∃ seen item rest b₁ s₁ s₂, items = seen ++ item :: rest ∧ Visits visit b s seen b₁ s₁ ∧
    Run.Logs s₁ s₂ ∧ (visit b₁ item).run s₂ = (.error failure, s')

theorem stopsAt_of_foldlM {texts : List (Item String)} {items : List (Item Json)}
    (hitems : texts.mapM Item.parsed = .ok items) {failure : Failure}
    (h : (texts.foldlM (fun b text => do visit b (← receive text)) b).run s
      = (.error failure, s')) : StopsAt visit b s items failure s' := by
  induction texts generalizing items b s with
  | nil => cases h
  | cons text texts ih =>
      obtain ⟨item, more, hitem, hmore, rfl⟩ := mapM_cons_ok hitems
      rw [List.foldlM_cons] at h
      rcases Run.bind_error h with hfirst | ⟨b₁, s₂, hfirst, hrest⟩
      · rcases Run.bind_error hfirst with hreceive | ⟨item', s₁, hreceive, hvisit⟩
        · exact (failsOnly_receive (P := fun _ => False) hitem s failure s' hreceive).elim
        · obtain ⟨hparsed, hlogs⟩ := receive_ok hreceive
          obtain rfl := Except.ok.inj (hitem.symm.trans hparsed)
          exact ⟨[], item, more, b, s, s₁, rfl, ⟨rfl, rfl⟩, hlogs, hvisit⟩
      · obtain ⟨item', s₁, hreceive, hvisit⟩ := Run.bind_ok hfirst
        obtain ⟨hparsed, hlogs⟩ := receive_ok hreceive
        obtain rfl := Except.ok.inj (hitem.symm.trans hparsed)
        obtain ⟨seen, last, rest, b₃, s₃, s₄, rfl, hseen, hlogs', hlast⟩ := ih hmore hrest
        exact ⟨item :: seen, last, rest, b₃, s₃, s₄, rfl, ⟨s₁, b₁, s₂, hlogs, hvisit, hseen⟩,
          hlogs', hlast⟩

/-- Reading ends in the failure of the page, if there is one, once all items were visited, or in the
failure of a visit. -/
theorem read_visits {files : Directory} {path : String} {octets : List UInt8}
    (hfile : files path = .file octets) {texts : List (Item String)} {items : List (Item Json)}
    {broken : Option Failure} (hcontent : Content.ofOctets path octets = ⟨texts, broken⟩)
    (hitems : texts.mapM Item.parsed = .ok items) {outcome : Except Failure β}
    (h : (read files path b visit).run s = (outcome, s')) :
    (∃ b', Visits visit b { s with journal := s.journal.push (.opened path) } items b' s' ∧
      outcome = ending broken b') ∨
    ∃ failure, outcome = .error failure ∧
      StopsAt visit b { s with journal := s.journal.push (.opened path) } items failure s' := by
  rw [read, hfile] at h
  simp only at h
  rw [Run.run_bind_ok (Run.run_note (.opened path) s), hcontent, Content.visit] at h
  generalize { s with journal := s.journal.push (.opened path) } = s₀ at h
  cases hfold : (texts.foldlM (fun b text => do visit b (← receive text)) b).run s₀ with
  | mk first s₁ =>
      cases first with
      | error failure =>
          rw [Run.run_bind_error hfold] at h
          obtain ⟨rfl, rfl⟩ := Prod.mk.inj h
          exact .inr ⟨failure, rfl, stopsAt_of_foldlM hitems hfold⟩
      | ok b' =>
          rw [Run.run_bind_ok hfold] at h
          have hvisits := visits_of_foldlM hitems hfold
          cases broken with
          | none | some failure =>
              obtain ⟨rfl, rfl⟩ := Prod.mk.inj h
              exact .inl ⟨b', hvisits, rfl⟩

end

end Staging.Page

namespace Staging.Stage

open Sql Page

variable {stager : Stager} {t : Schema.Table} {b b' : Batch} {n n' : Nat}
  {p p' : Session Progress}

/-! ## The batch of a page -/

theorem finish_pending {w : Inserter} (h : (w.finish b).run p = (.ok b', p')) :
    b'.pending = 0 := by
  rw [Inserter.finish] at h
  split at h
  · obtain ⟨flushed, p₁, hflush, h⟩ := Run.bind_ok h
    obtain ⟨rfl, -⟩ := Run.pure_ok h
    rw [Inserter.flush_ok hflush]
    rfl
  · rename_i hpending
    obtain ⟨rfl, -⟩ := Run.pure_ok h
    exact Nat.eq_zero_of_not_pos hpending

/-- Behind the last end of an array no tuple is pending. -/
theorem arrays_pending {arrays : List (List Json)} (hb : b.pending = 0)
    (h : Visits (stager.loadItem t) (b, n) p (arrays.flatMap arrayItems) (b', n') p') :
    b'.pending = 0 := by
  induction arrays generalizing b n p with
  | nil =>
      obtain ⟨heq, -⟩ := h
      obtain ⟨rfl, -⟩ := Prod.mk.inj heq
      exact hb
  | cons records arrays ih =>
      rw [List.flatMap_cons, arrayItems, ← List.cons_append] at h
      obtain ⟨⟨b₂, n₂⟩, p₂, hfirst, hmore⟩ := visits_append h
      obtain ⟨⟨b₁, n₁⟩, p₁, -, hend⟩ := visits_append hfirst
      obtain ⟨p₃, ⟨b₃, n₃⟩, p₄, -, hitem, hdone, -⟩ := hend
      obtain ⟨rfl, rfl⟩ := Prod.mk.inj hdone
      obtain ⟨b₄, p₅, hfinish, hpure⟩ := Run.bind_ok hitem
      obtain ⟨heq, -⟩ := Run.pure_ok hpure
      obtain ⟨rfl, rfl⟩ := Prod.mk.inj heq
      exact ih (finish_pending hfinish) hmore

/-- Since an array began, the batch is a statement that was begun with it. -/
theorem records_begun {arrays : List (List Json)} {records : List Json}
    (h : Visits (stager.loadItem t) (b, n) p
      (arrays.flatMap arrayItems ++ .arrayStart :: records.map .record) (b', n') p') :
    ∃ rows, b'.Holds (stager.inserter t).lead rows := by
  obtain ⟨⟨b₁, n₁⟩, p₁, -, p₂, ⟨b₂, n₂⟩, p₃, -, hstart, hrecords⟩ := visits_append h
  obtain ⟨heq, -⟩ := Run.pure_ok hstart
  obtain ⟨rfl, rfl⟩ := Prod.mk.inj heq
  obtain ⟨-, -, rows, -, -, hholds, -⟩ :=
    records_books (Batch.holds_start b₁ (stager.inserter t).lead) hrecords
  exact ⟨rows, hholds⟩

/-- How loading takes in a page that delivers these items and then ends in this failure, if it does
not end well. -/
structure Stager.TakesIn (stager : Stager) (t : Schema.Table) (path : String)
    (items : List (Item Json)) (broken : Option Failure) : Prop where
  /-- When a record is visited, an array has begun behind the last one that ended, and with it the
  batch that the row is written to. -/
  begun : ∀ seen record rest, items = seen ++ .record record :: rest →
    (∃ (arrays : List (List Json)) (records : List Json),
      seen = arrays.flatMap arrayItems ++ .arrayStart :: records.map .record) ∧
    ∀ count p batch n p', Visits (stager.loadItem t) ({}, count) p seen (batch, n) p' →
      ∃ rows, batch.Holds (stager.inserter t).lead rows
  /-- When the page ends well, no tuple is pending. -/
  finished : ∀ count p batch n p',
    (read stager.files path ({}, count) (stager.loadItem t)).run p = (.ok (batch, n), p') →
      batch.pending = 0
  /-- All items are visited before the failure of the page, unless loading one of them fails. -/
  delivered : ∀ count p outcome p',
    (read stager.files path ({}, count) (stager.loadItem t)).run p = (outcome, p') →
      (∃ state, Visits (stager.loadItem t) ({}, count)
        { p with journal := p.journal.push (.opened path) } items state p' ∧
        outcome = ending broken state) ∨
      ∃ failure, outcome = .error failure ∧ StopsAt (stager.loadItem t) ({}, count)
        { p with journal := p.journal.push (.opened path) } items failure p'

theorem takesIn_of_begins {path : String} {octets : List UInt8} {doc : Json}
    (hfile : stager.files path = .file octets) (hdoc : Begins octets doc) : ∃ items,
      stager.TakesIn t path items ((events octets).2.map (Break.failure path)) ∧
      items <+: documentItems doc ∧ items.filterMap Item.record?
        = (recordArrays doc).flatten.take (recordsClosed [] (events octets).1) := by
  obtain ⟨texts, items, hcontent, hitems, hprefix, hrecords⟩ := ofOctets_cut hdoc path
  refine ⟨items, ⟨?_, ?_, ?_⟩, hprefix, hrecords⟩
  · rintro seen record rest rfl
    obtain ⟨more, hmore⟩ := hprefix
    rw [List.append_assoc, List.cons_append] at hmore
    obtain ⟨arrays, records, rfl⟩ := before_record hmore.symm
    refine ⟨⟨arrays, records, rfl⟩, ?_⟩
    intro count p batch n p' hvisits
    exact records_begun hvisits
  · intro count p batch n p' hread
    obtain ⟨⟨doc', hholds⟩, hvisits⟩ := read_ok hread
    have hpending : ({} : Batch).pending = 0 := rfl
    exact arrays_pending hpending (hvisits doc' hholds)
  · intro count p outcome p' hread
    exact read_visits hfile hcontent hitems hread

/-- Fed any first part of a document's events, a fresh assembly takes them all, tells how many
containers are open and whether one is a record, and has delivered how the document's arrays of
records begin. So loading any page writes only to a batch that was begun since the last was
finished, leaves no tuple behind, and takes in the records that the page's events have closed. -/
theorem prefix_delivers (stager : Stager) (t : Schema.Table) :
    (∀ (doc : Json) (es : List Event), es <+: Event.ofJson doc →
      ∃ (within : List Container) (items : List (Item String)) (a : Assembly)
        (arrays : List (List String)),
        Event.open? es = some within ∧ Assembly.feedAll {} es = .ok (items, a) ∧ a.Knows within ∧
        itemsFrom {} (Event.ofJson doc) = (arrays.flatMap arrayItems, none) ∧
        items <+: arrays.flatMap arrayItems) ∧
    ∀ (path : String) (octets : List UInt8), stager.files path = .file octets →
      (∃ doc, Begins octets doc) ∧ ∀ doc, Begins octets doc → ∃ items,
        stager.TakesIn t path items ((events octets).2.map (Break.failure path)) ∧
        items <+: documentItems doc ∧ items.filterMap Item.record?
          = (recordArrays doc).flatten.take (recordsClosed [] (events octets).1) := by
  refine ⟨?_, ?_⟩
  · intro doc es hes
    obtain ⟨within, items, a, hopen, hfeed, hknows, -, -, arrays, hall, hprefix⟩ :=
      Assembly.feedAll_prefix hes
    exact ⟨within, items, a, arrays, hopen, hfeed, hknows, hall, hprefix⟩
  · intro path octets hfile
    refine ⟨exists_begins octets, ?_⟩
    intro doc hdoc
    exact takesIn_of_begins hfile hdoc

/-- A page that breaks off in its second record. -/
def cutOctets : List UInt8 := "[\x7b\x7d,\x7b".toUTF8.toList

def cutStager : Stager := { noteStager with
  files := fun path => if path = "/d/notes_0.json" then .file cutOctets else .missing }

theorem events_cutOctets : events cutOctets
    = ([.startArray, .startObject, .endObject, .startObject], some .malformed) := by
  with_unfolding_all rfl

/-- One of the documents that the page may have been. -/
theorem begins_cutOctets : Begins cutOctets (.arr [.obj [], .obj []]) := by
  refine ⟨rfl, [.endObject, .endArray], ?_⟩
  rw [events_cutOctets]
  rfl

/-- The page is left in a record at depth two, and has delivered the record before it. -/
theorem cut_delivers :
    (∃ items a, Assembly.feedAll {} (events cutOctets).1 = .ok (items, a) ∧
      a.place = .inRecord ∧ a.depth = 2) ∧
    cutStager.files "/d/notes_0.json" = .file cutOctets ∧
    ∃ items, cutStager.TakesIn noteTable "/d/notes_0.json" items
        (some (.page (.malformed "/d/notes_0.json"))) ∧
      items.filterMap Item.record? = [.obj []] := by
  obtain ⟨hassembly, hload⟩ := prefix_delivers cutStager noteTable
  obtain ⟨within, texts, a, arrays, hopen, hfeed, hknows, -, -⟩ :=
    hassembly _ _ begins_cutOctets.events
  obtain ⟨items, htakes, -, hrecords⟩ :=
    (hload "/d/notes_0.json" cutOctets rfl).2 _ begins_cutOctets
  rw [events_cutOctets] at hopen htakes hrecords
  obtain rfl : [.object, .array] = within := Option.some.inj hopen
  refine ⟨⟨texts, a, hfeed, hknows.inRecord.mpr ?_, hknows.depth⟩, rfl, items, htakes, hrecords⟩
  exact .inl (List.suffix_refl _)

end Staging.Stage
