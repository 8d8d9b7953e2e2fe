import Staging.Page.Reading
import Staging.Proofs.Page.Assembly
import Staging.Proofs.Page.Grammar
import Staging.Proofs.Session

/-!
# What a page delivers to its reader

A page that is read to its end holds one document, and its reader visits that document's items in
order, with nothing in between but log records (`read_ok`). Reading a page that holds a document
fails only if a visit does (`failsOnly_read`).
-/

namespace Staging.Page

variable {σ β : Type}

/-- The page at a path is whole and holds this document. -/
def Holds (files : Directory) (path : String) (doc : Json) : Prop :=
  doc.inRange = true ∧
    ∃ octets, files path = .file octets ∧ events octets = (Event.ofJson doc, none)

/-- The items are visited one after the other, each after log records at most. -/
def Visits (visit : β → Item Json → Run σ β) :
    β → Session σ → List (Item Json) → β → Session σ → Prop
  | b, s, [], b', s' => b = b' ∧ s = s'
  | b, s, item :: items, b', s' => ∃ s₁ b₁ s₂, Run.Logs s s₁ ∧
      (visit b item).run s₁ = (.ok b₁, s₂) ∧ Visits visit b₁ s₂ items b' s'

theorem visits_append {visit : β → Item Json → Run σ β} {items more : List (Item Json)} {b b' : β}
    {s s' : Session σ} (h : Visits visit b s (items ++ more) b' s') :
    ∃ b₁ s₁, Visits visit b s items b₁ s₁ ∧ Visits visit b₁ s₁ more b' s' := by
  induction items generalizing b s with
  | nil => exact ⟨b, s, ⟨rfl, rfl⟩, h⟩
  | cons item items ih =>
      obtain ⟨s₁, b₁, s₂, hlogs, hvisit, hrest⟩ := h
      obtain ⟨b₂, s₃, hitems, hmore⟩ := ih hrest
      exact ⟨b₂, s₃, ⟨s₁, b₁, s₂, hlogs, hvisit, hitems⟩, hmore⟩

theorem receive_ok {text : Item String} {item : Item Json} {s s' : Session σ}
    (h : (receive text).run s = (.ok item, s')) : text.parsed = .ok item ∧ Run.Logs s s' := by
  cases text with
  | record text =>
      obtain ⟨⟨⟩, s₁, hlog, hread⟩ := Run.bind_ok h
      obtain ⟨r, s₂, hlift, hpure⟩ := Run.bind_ok hread
      obtain ⟨hr, rfl⟩ := Run.liftExcept_ok hlift
      obtain ⟨rfl, rfl⟩ := Run.pure_ok hpure
      refine ⟨by rw [Item.parsed, hr]; rfl, ?_⟩
      have hlogs := Run.logs_log channel Log.Level.trace "New record parsed"
        [("record", .str text)] s
      rwa [hlog] at hlogs
  | _ =>
      obtain ⟨rfl, rfl⟩ := Run.pure_ok h
      exact ⟨rfl, Run.chain_logs.refl s⟩

/-- What is visited are the items as they are read from their texts. -/
theorem visits_of_foldlM {visit : β → Item Json → Run σ β} {texts : List (Item String)}
    {items : List (Item Json)} (hitems : texts.mapM Item.parsed = .ok items) {b b' : β}
    {s s' : Session σ}
    (h : (texts.foldlM (fun b text => do visit b (← receive text)) b).run s = (.ok b', s')) :
    Visits visit b s items b' s' := by
  induction texts generalizing items b s with
  | nil =>
      obtain rfl := Except.ok.inj hitems
      exact Run.pure_ok h
  | cons text texts ih =>
      obtain ⟨b₁, s₂, hfirst, hrest⟩ := Run.foldlM_cons_ok h
      obtain ⟨item, s₁, hreceive, hvisit⟩ := Run.bind_ok hfirst
      obtain ⟨hparsed, hlogs⟩ := receive_ok hreceive
      obtain ⟨item', more, hitem, hmore, rfl⟩ := mapM_cons_ok hitems
      obtain rfl := Except.ok.inj (hitem.symm.trans hparsed)
      exact ⟨s₁, b₁, s₂, hlogs, hvisit, ih hmore hrest⟩

theorem ofOctets_complete {path : String} {octets : List UInt8}
    (h : (Content.ofOctets path octets).failure = none) :
    ∃ doc : Json, doc.inRange = true ∧ events octets = (Event.ofJson doc, none) := by
  cases hevents : events octets with
  | mk es broken =>
      rw [Content.ofOctets, hevents] at h
      simp only at h
      split at h
      · cases h
      · have hbroken := Option.map_eq_none_iff.mp h
        subst hbroken
        obtain ⟨doc, hrange, rfl⟩ := ofJson_of_complete hevents
        exact ⟨doc, hrange, rfl⟩

theorem ofOctets_document {path : String} {octets : List UInt8} {doc : Json}
    (hrange : doc.inRange = true) (h : events octets = (Event.ofJson doc, none)) :
    Content.ofOctets path octets = ⟨Assembly.documentTexts doc, none⟩ := by
  obtain ⟨root, arrayDepth, hfeed⟩ := Assembly.feedAll_texts hrange
  rw [Content.ofOctets, h]
  simp only [Assembly.itemsFrom_of_feedAll hfeed, Option.map_none]

/-- A page holds one document, as far as its items are concerned. -/
theorem Holds.items_eq {files : Directory} {path : String} {doc doc' : Json}
    (h : Holds files path doc) (h' : Holds files path doc') :
    documentItems doc = documentItems doc' := by
  obtain ⟨hrange, octets, hfile, hevents⟩ := h
  obtain ⟨hrange', octets', hfile', hevents'⟩ := h'
  obtain rfl : octets = octets' := Entry.file.inj (hfile.symm.trans hfile')
  have hcontent : Content.ofOctets path octets = ⟨Assembly.documentTexts doc, none⟩ :=
    ofOctets_document hrange hevents
  rw [ofOctets_document hrange' hevents'] at hcontent
  have htexts : Assembly.documentTexts doc' = Assembly.documentTexts doc :=
    congrArg Content.items hcontent
  have hitems := Assembly.parsed_documentTexts hrange
  rw [← htexts, Assembly.parsed_documentTexts hrange'] at hitems
  exact (Except.ok.inj hitems).symm

/-- A page that was read to its end holds a document, and its items were visited in order. -/
theorem read_ok {files : Directory} {path : String} {b b' : β} {visit : β → Item Json → Run σ β}
    {s s' : Session σ} (h : (read files path b visit).run s = (.ok b', s')) :
    (∃ doc, Holds files path doc) ∧ ∀ doc, Holds files path doc → Visits visit b
      { s with journal := s.journal.push (.opened path) } (documentItems doc) b' s' := by
  rw [read] at h
  cases hfile : files path with
  | missing =>
      rw [hfile] at h
      cases h
  | folder =>
      rw [hfile] at h
      cases h
  | file octets =>
      rw [hfile] at h
      simp only at h
      rw [Run.run_bind_ok (Run.run_note (.opened path) s), Content.visit] at h
      obtain ⟨b₁, s₁, hfold, hend⟩ := Run.bind_ok h
      have hfailure : (Content.ofOctets path octets).failure = none := by
        cases hf : (Content.ofOctets path octets).failure with
        | none => rfl
        | some failure =>
            rw [hf] at hend
            cases hend
      rw [hfailure] at hend
      obtain ⟨rfl, rfl⟩ := Run.pure_ok hend
      refine ⟨?_, ?_⟩
      · obtain ⟨doc, hrange, hdoc⟩ := ofOctets_complete hfailure
        exact ⟨doc, hrange, octets, hfile, hdoc⟩
      · rintro doc ⟨hrange, octets', hfile', hdoc⟩
        obtain rfl : octets = octets' := Entry.file.inj (hfile.symm.trans hfile')
        rw [ofOctets_document hrange hdoc] at hfold
        exact visits_of_foldlM (Assembly.parsed_documentTexts hrange) hfold

/-! ## What reading keeps -/

theorem along_receive {R : Session σ → Session σ → Prop} (hR : Run.Chain R)
    (hlogged : ∀ r, Run.Along R (Run.note (.logged r) : Run σ Unit)) (text : Item String) :
    Run.Along R (receive text : Run σ (Item Json)) := by
  cases text with
  | record text =>
      refine hR.bind (fun s => hlogged _ s) fun _ => ?_
      exact hR.bind (hR.liftExcept _) fun _ => hR.pure _
  | _ => exact hR.pure _

/-- What every visit keeps, reading keeps, whatever the page holds and however it ends. -/
theorem along_read {R : Session σ → Session σ → Prop} (hR : Run.Chain R)
    {files : Directory} {path : String} {visit : β → Item Json → Run σ β}
    (hopened : Run.Along R (Run.note (.opened path) : Run σ Unit))
    (hlogged : ∀ r, Run.Along R (Run.note (.logged r) : Run σ Unit))
    (hvisit : ∀ b item, Run.Along R (visit b item)) (b : β) :
    Run.Along R (read files path b visit) := by
  unfold read
  split
  · exact hR.throw _
  · exact hR.throw _
  · refine hR.bind hopened fun _ => ?_
    unfold Content.visit
    refine hR.bind (hR.foldlM ?_ b) fun _ => ?_
    · intro text _ b
      exact hR.bind (along_receive hR hlogged text) fun item => hvisit b item
    · split
      · exact hR.pure _
      · exact hR.throw _

/-- Texts that can be read leave to the visits what is kept. Each visit finds the state ready for
its item and all items to come. -/
theorem along_foldlM_held {R : Session σ → Session σ → Prop} (hR : Run.Chain R)
    {ready : List (Item Json) → β → Prop} {visit : β → Item Json → Run σ β}
    (hlogged : ∀ r, Run.Along R (Run.note (.logged r) : Run σ Unit))
    (hvisit : ∀ item items b, ready (item :: items) b → Run.Along R (visit b item) ∧
      ∀ s b' s', (visit b item).run s = (.ok b', s') → ready items b')
    {texts : List (Item String)} {items : List (Item Json)}
    (hitems : texts.mapM Item.parsed = .ok items) {b : β} (hb : ready items b) :
    Run.Along R (texts.foldlM (fun b text => do visit b (← receive text)) b) := by
  induction texts generalizing items b with
  | nil => exact hR.pure b
  | cons text texts ih =>
      obtain ⟨item, more, hparsed, hmore, rfl⟩ := mapM_cons_ok hitems
      obtain ⟨hfirst, hnext⟩ := hvisit item more b hb
      have hreceive : Run.Along R (receive text : Run σ (Item Json)) :=
        along_receive hR hlogged text
      rw [List.foldlM_cons]
      intro s
      refine hR.bind_run (hR.bind_run (hreceive s) ?_) ?_
      · intro item' s' h
        obtain rfl := Except.ok.inj (hparsed.symm.trans (receive_ok h).1)
        exact hfirst s'
      · intro b' s' h
        obtain ⟨item', s₁, hread, h⟩ := Run.bind_ok h
        obtain rfl := Except.ok.inj (hparsed.symm.trans (receive_ok hread).1)
        exact ih hmore (hnext s₁ b' s' h) s'

/-- What is kept by visits to the items of a document in their order, reading it keeps. -/
theorem along_read_held {R : Session σ → Session σ → Prop} (hR : Run.Chain R)
    {ready : List (Item Json) → β → Prop} {files : Directory} {path : String} {doc : Json}
    {visit : β → Item Json → Run σ β} (hdoc : Holds files path doc)
    (hopened : Run.Along R (Run.note (.opened path) : Run σ Unit))
    (hlogged : ∀ r, Run.Along R (Run.note (.logged r) : Run σ Unit))
    (hvisit : ∀ item items b, ready (item :: items) b → Run.Along R (visit b item) ∧
      ∀ s b' s', (visit b item).run s = (.ok b', s') → ready items b')
    {b : β} (hb : ready (documentItems doc) b) : Run.Along R (read files path b visit) := by
  obtain ⟨hrange, octets, hfile, hevents⟩ := hdoc
  have hitems := Assembly.parsed_documentTexts hrange
  unfold read
  rw [hfile]
  refine hR.bind hopened fun _ => ?_
  unfold Content.visit
  rw [ofOctets_document hrange hevents]
  exact hR.bind (along_foldlM_held hR hlogged hvisit hitems hb) fun _ => hR.pure _

/-! ## Failures -/

section

variable {P : Failure → Prop} {visit : β → Item Json → Run σ β}

theorem failsOnly_receive {text : Item String} {item : Item Json} (h : text.parsed = .ok item) :
    Run.FailsOnly P (receive text : Run σ (Item Json)) := by
  cases text with
  | record text =>
      refine (Run.failsOnly_log _ _ _ _).bind fun _ => ?_
      refine (Run.failsOnly_liftExcept ?_).bind fun _ => Run.failsOnly_pure _
      intro e he
      rw [Item.parsed, he] at h
      cases h
  | _ => exact Run.failsOnly_pure _

/-- Texts that can be read leave the visits to fail. -/
theorem failsOnly_foldlM {texts : List (Item String)} {items : List (Item Json)}
    (hitems : texts.mapM Item.parsed = .ok items)
    (hvisit : ∀ item ∈ items, ∀ b, Run.FailsOnly P (visit b item)) (b : β) :
    Run.FailsOnly P (texts.foldlM (fun b text => do visit b (← receive text)) b) := by
  induction texts generalizing items b with
  | nil => exact Run.failsOnly_pure b
  | cons text texts ih =>
      obtain ⟨item, more, hparsed, hmore, rfl⟩ := mapM_cons_ok hitems
      rw [List.forall_mem_cons] at hvisit
      rw [List.foldlM_cons]
      refine Run.FailsOnly.bind ?_ fun b' => ih hmore hvisit.2 b'
      intro s e s' h
      obtain h | ⟨item', s₁, hreceive, h⟩ := Run.bind_error h
      · exact failsOnly_receive hparsed s e s' h
      · obtain ⟨hitem, -⟩ := receive_ok hreceive
        obtain rfl := Except.ok.inj (hparsed.symm.trans hitem)
        exact hvisit.1 b s₁ e s' h

theorem failsOnly_read {files : Directory} {path : String} {doc : Json}
    (hdoc : Holds files path doc)
    (hvisit : ∀ item ∈ documentItems doc, ∀ b, Run.FailsOnly P (visit b item)) (b : β) :
    Run.FailsOnly P (read files path b visit) := by
  obtain ⟨hrange, octets, hfile, hevents⟩ := hdoc
  have hitems := Assembly.parsed_documentTexts hrange
  unfold read
  rw [hfile]
  refine (Run.failsOnly_note _).bind fun _ => ?_
  unfold Content.visit
  rw [ofOctets_document hrange hevents]
  exact (failsOnly_foldlM hitems hvisit b).bind fun _ => Run.failsOnly_pure _

end

end Staging.Page
