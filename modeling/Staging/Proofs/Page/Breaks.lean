import Staging.Proofs.Page.Reading

/-!
# How pages break off

Reading a page ends well just if the page holds a document. A page that is not there, is a folder or
breaks the grammar ends in a failure of the page. One thing more can go wrong, and it is no failure
of the page: the tokens may lead, in good order, to a string whose octets are no text (`read_ends`).

Up to a break a page is read like the beginning of a document (`ofOctets_begins`), so every record
that was put together by then can be read.
-/

namespace Staging.Page

open Text

/-! ## What a token takes -/

/-- A run that is not empty takes the first character. -/
theorem dropWhile_suffix_tail {α : Type} {p : α → Bool} {s : List α} (h : s.takeWhile p ≠ []) :
    s.dropWhile p <:+ s.tail := by
  cases s with
  | nil => exact absurd rfl h
  | cons c s =>
      rw [List.takeWhile_cons] at h
      rw [List.dropWhile_cons]
      split at h
      · rename_i hc
        rw [if_pos hc]
        exact List.dropWhile_suffix p
      · exact absurd rfl h

theorem takeWhole?_suffix {s rest whole : List Char} (h : Json.takeWhole? s = some (whole, rest)) :
    rest <:+ s.tail := by
  unfold Json.takeWhole? at h
  split at h
  · obtain ⟨-, rfl⟩ := Prod.mk.inj (Option.some.inj h)
    exact List.suffix_rfl
  · split at h
    · cases h
    · rename_i hrun
      obtain ⟨-, rfl⟩ := Prod.mk.inj (Option.some.inj h)
      exact dropWhile_suffix_tail hrun

theorem fraction?_suffix {s rest fraction : List Char} (h : fraction? s = some (fraction, rest)) :
    rest <:+ s := by
  unfold fraction? at h
  split at h
  · unfold Json.takeFraction? at h
    split at h
    · split at h
      · cases h
      · obtain ⟨-, rfl⟩ := Prod.mk.inj (Option.some.inj h)
        exact (List.dropWhile_suffix _).trans (List.suffix_cons _ _)
    · cases h
  · obtain ⟨-, rfl⟩ := Prod.mk.inj (Option.some.inj h)
    exact List.suffix_rfl

theorem sign_suffix (s : List Char) : (Number.sign s).2 <:+ s := by
  unfold Number.sign
  split
  · exact List.suffix_cons _ _
  · exact List.suffix_cons _ _
  · exact List.suffix_rfl

theorem exponent?_suffix {s rest : List Char} {e : Option Int}
    (h : exponent? s = some (e, rest)) : rest <:+ s := by
  unfold exponent? at h
  split at h
  · obtain ⟨⟨n, tail⟩, htake, heq⟩ := Option.map_eq_some_iff.mp h
    obtain ⟨-, rfl⟩ := Prod.mk.inj heq
    unfold Json.takeExponent? at htake
    split at htake
    · cases htake
    · rename_i body _
      have hbody := sign_suffix body
      cases hsign : Number.sign body with
      | mk negative digits =>
          rw [hsign] at htake hbody
          simp only at htake
          split at htake
          · split at htake
            · cases htake
            · obtain ⟨-, rfl⟩ := Prod.mk.inj (Option.some.inj htake)
              exact ((List.dropWhile_suffix _).trans hbody).trans (List.suffix_cons _ _)
          · cases htake
  · obtain ⟨-, rfl⟩ := Prod.mk.inj (Option.some.inj h)
    exact List.suffix_rfl

theorem numeral?_suffix {negative : Bool} {s rest : List Char} {v : Json}
    (h : numeral? negative s = some (v, rest)) : rest <:+ s.tail := by
  simp only [numeral?, Option.bind_eq_bind, Option.bind_eq_some_iff, Prod.exists,
    Option.pure_def] at h
  obtain ⟨whole, afterWhole, hwhole, fraction, afterFraction, hfraction, e, tail, hexponent, h⟩ := h
  obtain rfl : tail = rest := by
    split at h
    all_goals
      obtain ⟨value, -, hv⟩ := Option.bind_eq_some_iff.mp h
      exact (Prod.mk.inj (Option.some.inj hv)).2
  exact ((exponent?_suffix hexponent).trans (fraction?_suffix hfraction)).trans
    (takeWhole?_suffix hwhole)

theorem stringBody_suffix {s : List Char} {content : List UInt8} {rest : List Char}
    (h : stringBody s = .ok (content, rest)) : rest <:+ s := by
  fun_induction stringBody s generalizing content with
  | case2 tail =>
      obtain ⟨-, rfl⟩ := Prod.mk.inj (Except.ok.inj h)
      exact List.suffix_cons _ _
  | case4 | case7 =>
      rename_i ih
      obtain ⟨⟨content', tail⟩, hbody, heq⟩ := Run.map_eq_ok.mp h
      obtain ⟨-, rfl⟩ := Prod.mk.inj heq
      exact ((ih hbody).trans (List.drop_suffix _ _)).trans (List.suffix_cons _ _)
  | case1 | case3 | case5 | case6 | case8 => cases h

/-- Every token takes a character at least. -/
theorem scan?_suffix {s rest : List Char} {t : Token} (h : scan? s = some (t, rest)) :
    rest <:+ s.tail := by
  rw [scan?.eq_def] at h
  split at h
  case h_10 =>
    obtain ⟨⟨content, tail⟩, hbody, heq⟩ := Option.map_eq_some_iff.mp h
    obtain ⟨-, rfl⟩ := Prod.mk.inj heq
    exact stringBody_suffix (Run.toOption_eq_some_iff.mp hbody)
  case h_11 =>
    obtain ⟨⟨v, tail⟩, hnum, heq⟩ := Option.map_eq_some_iff.mp h
    obtain ⟨-, rfl⟩ := Prod.mk.inj heq
    exact (numeral?_suffix hnum).trans (List.tail_suffix _)
  case h_12 =>
    obtain ⟨⟨v, tail⟩, hnum, heq⟩ := Option.map_eq_some_iff.mp h
    obtain ⟨-, rfl⟩ := Prod.mk.inj heq
    exact numeral?_suffix hnum
  all_goals obtain ⟨-, rfl⟩ := Prod.mk.inj (Option.some.inj h)
  case h_7 => exact ⟨['u', 'l', 'l'], rfl⟩
  case h_8 => exact ⟨['r', 'u', 'e'], rfl⟩
  case h_9 => exact ⟨['a', 'l', 's', 'e'], rfl⟩
  all_goals exact List.suffix_rfl

theorem length_of_scan? {s rest : List Char} {t : Token}
    (h : scan? (skipSpace s) = some (t, rest)) : rest.length < s.length := by
  have hrest := (scan?_suffix h).length_le
  have hspace : (skipSpace s).length ≤ s.length := (List.dropWhile_suffix _).length_le
  have hsome : skipSpace s ≠ [] := by
    rintro hnil
    rw [hnil] at h
    cases h
  have hpos := List.length_pos_iff.mpr hsome
  rw [List.length_tail] at hrest
  omega

/-! ## Strings that are no text -/

/-- The token is a string, and its octets are no text. -/
def Token.IsNonText (t : Token) (fault : Utf8.Fault) : Prop :=
  ∃ content, t = .string content ∧ Utf8.decode content = .error fault

theorem isNonText_string {content : List UInt8} {fault : Utf8.Fault} :
    (Token.string content).IsNonText fault
      ↔ Cursor.decoded content = .error (.undecodable fault) := by
  simp only [Token.IsNonText, Token.string.injEq, exists_eq_left']
  unfold Cursor.decoded
  cases Utf8.decode content <;> simp

theorem stepValue_undecodable {within : List Container} {t : Token} {fault : Utf8.Fault} :
    Cursor.stepValue within t = .error (.undecodable fault) ↔ t.IsNonText fault := by
  cases t with
  | string content =>
      rw [isNonText_string, Cursor.stepValue]
      cases Cursor.decoded content <;> simp [bind, Except.bind, pure, Except.pure]
  | _ => simp [Cursor.stepValue, Token.IsNonText]

theorem stepName_undecodable {within : List Container} {t : Token} {fault : Utf8.Fault} :
    Cursor.stepName within t = .error (.undecodable fault) ↔ t.IsNonText fault := by
  cases t with
  | string content =>
      rw [isNonText_string, Cursor.stepName]
      cases Cursor.decoded content <;> simp [bind, Except.bind, pure, Except.pure]
  | _ => simp [Cursor.stepName, Token.IsNonText]

/-- A string may come next. -/
def Cursor.TakesString (c : Cursor) : Prop := c.expected ∈ [.value, .firstItem, .firstName, .name]

/-- Where a string may come, it must be text; no other token need be. -/
theorem step_undecodable {c : Cursor} {t : Token} {fault : Utf8.Fault} :
    c.step t = .error (.undecodable fault) ↔ c.TakesString ∧ t.IsNonText fault := by
  obtain ⟨within, expected⟩ := c
  unfold Cursor.step Cursor.TakesString
  simp only
  split
  case h_8 | h_9 => simp [Run.map_eq_error, stepValue_undecodable]
  case h_10 | h_11 => simp [Run.map_eq_error, stepName_undecodable]
  case h_12 => cases expected <;> simp_all
  all_goals simp [Token.IsNonText]

/-- The tokens of a text lead, in good order, from one place to another, before which this text is
left. -/
inductive Scans : Cursor → List Char → Cursor → List Char → Prop
  | here (c : Cursor) (s : List Char) : Scans c s c s
  | token {c c' c'' : Cursor} {s rest s' : List Char} {t : Token} {event : Option Event}
      (hscan : scan? (skipSpace s) = some (t, rest)) (hstep : c.step t = .ok (event, c'))
      (hrest : Scans c' rest c'' s') : Scans c s c'' s'

/-- The tokens of a text lead from a place to a string that is no text. -/
def LeadsToNonText (c : Cursor) (s : List Char) (fault : Utf8.Fault) : Prop :=
  ∃ c' s' t rest, Scans c s c' s' ∧ c'.TakesString ∧
    scan? (skipSpace s') = some (t, rest) ∧ t.IsNonText fault

theorem leadsToNonText_token {c c' : Cursor} {s rest : List Char} {t : Token}
    {event : Option Event} {fault : Utf8.Fault} (hscan : scan? (skipSpace s) = some (t, rest))
    (hstep : c.step t = .ok (event, c')) :
    LeadsToNonText c s fault ↔ LeadsToNonText c' rest fault := by
  constructor
  · rintro ⟨c'', s'', t'', rest'', hscans, htakes, hlast, hnon⟩
    cases hscans with
    | here =>
        obtain ⟨rfl, rfl⟩ := Prod.mk.inj (Option.some.inj (hscan.symm.trans hlast))
        cases hstep.symm.trans (step_undecodable.mpr ⟨htakes, hnon⟩)
    | token hscan' hstep' hrest =>
        obtain ⟨rfl, rfl⟩ := Prod.mk.inj (Option.some.inj (hscan.symm.trans hscan'))
        obtain ⟨-, rfl⟩ := Prod.mk.inj (Except.ok.inj (hstep.symm.trans hstep'))
        exact ⟨c'', s'', t'', rest'', hrest, htakes, hlast, hnon⟩
  · rintro ⟨c'', s'', t'', rest'', hscans, htakes, hlast, hnon⟩
    exact ⟨c'', s'', t'', rest'', .token hscan hstep hscans, htakes, hlast, hnon⟩

/-- A text whose first token may not come leads to no string but that one. -/
theorem leadsToNonText_stop {c : Cursor} {s : List Char} {fault : Utf8.Fault}
    (hstop : ∀ t rest event c', scan? (skipSpace s) = some (t, rest) →
      c.step t ≠ .ok (event, c')) :
    LeadsToNonText c s fault ↔ ∃ t rest, scan? (skipSpace s) = some (t, rest) ∧
      c.step t = .error (.undecodable fault) := by
  constructor
  · rintro ⟨c', s', t, rest, hscans, htakes, hlast, hnon⟩
    cases hscans with
    | here => exact ⟨t, rest, hlast, step_undecodable.mpr ⟨htakes, hnon⟩⟩
    | token hscan hstep _ => exact absurd hstep (hstop _ _ _ _ hscan)
  · rintro ⟨t, rest, hscan, hstep⟩
    obtain ⟨htakes, hnon⟩ := step_undecodable.mp hstep
    exact ⟨c, s, t, rest, .here c s, htakes, hscan, hnon⟩

theorem step_nothing {c : Cursor} {t : Token} (hc : c.expected = .nothing) :
    c.step t = .error .malformed := by
  obtain ⟨within, expected⟩ := c
  obtain rfl : expected = .nothing := hc
  cases t <;> rfl

/-- With a step for every character and one more, a text is undecodable just if it leads to a string
that is no text. -/
theorem eventsFrom_undecodable {steps : Nat} {c : Cursor} {s : List Char} {fault : Utf8.Fault}
    (hsteps : s.length < steps) :
    (eventsFrom steps c s).2 = some (.undecodable fault) ↔ LeadsToNonText c s fault := by
  induction steps generalizing c s with
  | zero => cases hsteps
  | succ steps ih =>
      by_cases hnothing : c.expected = .nothing
      · rw [leadsToNonText_stop fun _ _ _ _ _ => by simp [step_nothing hnothing], eventsFrom,
          if_pos hnothing]
        simp [step_nothing hnothing]
      cases hscan : scan? (skipSpace s) with
      | none =>
          rw [leadsToNonText_stop (by simp [hscan])]
          simp [eventsFrom, hnothing, hscan]
      | some p =>
          obtain ⟨t, rest⟩ := p
          cases hstep : c.step t with
          | error b =>
              have hstop : ∀ t' rest' event c', scan? (skipSpace s) = some (t', rest') →
                  c.step t' ≠ .ok (event, c') := by
                intro t' rest' event c' hscan' hstep'
                obtain ⟨rfl, rfl⟩ := Prod.mk.inj (Option.some.inj (hscan.symm.trans hscan'))
                cases hstep.symm.trans hstep'
              rw [leadsToNonText_stop hstop]
              simp [eventsFrom, hnothing, hscan, hstep]
          | ok r =>
              have hrest := length_of_scan? hscan
              rw [leadsToNonText_token hscan hstep, ← ih (by omega)]
              simp [eventsFrom, hnothing, hscan, hstep]

/-! ## Pages -/

/-- The page at a path leads, with all tokens in good order, to a string that is no text. -/
def HoldsNonText (files : Directory) (path : String) (fault : Utf8.Fault) : Prop :=
  ∃ octets, files path = .file octets ∧
    LeadsToNonText {} (octets.map fun o => Char.ofNat o.toNat) fault

theorem events_undecodable {octets : List UInt8} {fault : Utf8.Fault} :
    (events octets).2 = some (.undecodable fault)
      ↔ LeadsToNonText {} (octets.map fun o => Char.ofNat o.toNat) fault :=
  eventsFrom_undecodable (by rw [List.length_map]; exact Nat.lt_succ_self _)

/-- Up to where it breaks off, if it does, a page delivers what the beginning of a document
delivers, and all of it can be read. -/
theorem ofOctets_begins (path : String) (octets : List UInt8) : ∃ texts items,
    Content.ofOctets path octets = ⟨texts, (events octets).2.map (Break.failure path)⟩ ∧
      texts.mapM Item.parsed = .ok items ∧
      ∃ doc : Json, doc.inRange = true ∧ items <+: documentItems doc := by
  cases hevents : events octets with
  | mk es broken =>
      obtain ⟨doc, more, hrange, hes, -⟩ := ofJson_of_events hevents
      obtain ⟨root, arrayDepth, hfeed⟩ := Assembly.feedAll_texts hrange
      rw [← hes] at hfeed
      obtain ⟨texts, a, rest, hfirst, -, htexts⟩ := Assembly.feedAll_append_ok hfeed
      obtain ⟨items, hitems, hprefix⟩ :=
        mapM_prefix ⟨rest, htexts.symm⟩ (Assembly.parsed_documentTexts hrange)
      refine ⟨texts, items, ?_, hitems, doc, hrange, hprefix⟩
      rw [Content.ofOctets, hevents]
      simp only [Assembly.itemsFrom_of_feedAll hfirst]

variable {σ β : Type} {files : Directory} {path : String} {visit : β → Item Json → Run σ β}

/-- Why a page gives no further records, unless it is complete. -/
def failure? (files : Directory) (path : String) : Option Failure :=
  match files path with
  | .missing => some (.page (.missing path))
  | .folder => some (.page (.folder path))
  | .file octets => (events octets).2.map (Break.failure path)

theorem failure?_of_holds {doc : Json} (hdoc : Holds files path doc) :
    failure? files path = none := by
  obtain ⟨-, octets, hfile, hevents⟩ := hdoc
  rw [failure?, hfile]
  simp only [hevents, Option.map_none]

theorem holds_of_failure? (h : failure? files path = none) : ∃ doc, Holds files path doc := by
  unfold failure? at h
  split at h
  · cases h
  · cases h
  · rename_i octets hfile
    obtain ⟨doc, hrange, hes⟩ :=
      ofJson_of_complete (Prod.ext rfl (Option.map_eq_none_iff.mp h) : events octets = (_, none))
    exact ⟨doc, hrange, octets, hfile, Prod.ext hes (Option.map_eq_none_iff.mp h)⟩

theorem failure?_undecodable {fault : Utf8.Fault} :
    failure? files path = some (.undecodable fault) ↔ HoldsNonText files path fault := by
  unfold failure? HoldsNonText
  cases hfile : files path with
  | missing | folder => simp
  | file octets =>
      simp only [Entry.file.injEq, exists_eq_left', ← events_undecodable]
      cases (events octets).2 with
      | none => simp
      | some b => cases b <;> simp [Break.failure]

theorem failure?_cases {failure : Failure} (h : failure? files path = some failure) :
    failure ∈ [.page (.missing path), .page (.folder path), .page (.malformed path)] ∨
      ∃ fault, failure = .undecodable fault ∧ HoldsNonText files path fault := by
  by_cases hnon : ∃ fault, failure = .undecodable fault
  · obtain ⟨fault, rfl⟩ := hnon
    exact .inr ⟨fault, rfl, failure?_undecodable.mp h⟩
  refine .inl ?_
  unfold failure? at h
  split at h
  · simp [← Option.some.inj h]
  · simp [← Option.some.inj h]
  · obtain ⟨b, -, rfl⟩ := Option.map_eq_some_iff.mp h
    cases b with
    | malformed => simp [Break.failure]
    | undecodable fault => exact absurd ⟨fault, rfl⟩ hnon

/-! ## Readers -/

/-- Reading fails in the ways in which visits do, and in the failure of the page itself. -/
theorem failsOnly_read_any {P : Failure → Prop} (hvisit : ∀ b item, Run.FailsOnly P (visit b item))
    (hpage : ∀ failure, failure? files path = some failure → P failure) (b : β) :
    Run.FailsOnly P (read files path b visit) := by
  unfold failure? at hpage
  unfold read
  split
  · rename_i hfile
    rw [hfile] at hpage
    exact Run.failsOnly_throw (hpage _ rfl)
  · rename_i hfile
    rw [hfile] at hpage
    exact Run.failsOnly_throw (hpage _ rfl)
  · rename_i octets hfile
    rw [hfile] at hpage
    obtain ⟨texts, items, hcontent, hitems, -⟩ := ofOctets_begins path octets
    refine (Run.failsOnly_note _).bind fun _ => ?_
    rw [hcontent]
    refine (failsOnly_foldlM hitems (fun item _ b => hvisit b item) b).bind fun _ => ?_
    split
    · exact Run.failsOnly_pure _
    · rename_i failure hfailure
      exact Run.failsOnly_throw (hpage failure hfailure)

/-- A reader that never fails is ended by the failure of the page. -/
theorem read_failed (hreader : ∀ b item, Run.FailsOnly (fun _ => False) (visit b item)) (b : β)
    (s : Session σ) {failure : Failure} (hfailure : failure? files path = some failure) :
    ((read files path b visit).run s).1 = .error failure := by
  have hfails : Run.FailsOnly (fun other => failure? files path = some other)
      (read files path b visit) :=
    failsOnly_read_any (fun b item s e s' h => (hreader b item s e s' h).elim) (fun _ h => h) b
  cases hrun : (read files path b visit).run s with
  | mk outcome s' =>
      cases outcome with
      | ok b' =>
          obtain ⟨⟨doc, hdoc⟩, -⟩ := read_ok hrun
          rw [failure?_of_holds hdoc] at hfailure
          cases hfailure
      | error other =>
          obtain rfl := Option.some.inj (hfailure.symm.trans (hfails s other s' hrun))
          rfl

/-- If the page has no failure, nothing ends such a reader before the page is complete. -/
theorem read_completed (hreader : ∀ b item, Run.FailsOnly (fun _ => False) (visit b item)) (b : β)
    (s : Session σ) (hfailure : failure? files path = none) :
    ∃ b', ((read files path b visit).run s).1 = .ok b' := by
  have hfails : Run.FailsOnly (fun _ => False) (read files path b visit) :=
    failsOnly_read_any hreader (fun _ h => by cases hfailure.symm.trans h) b
  cases hrun : (read files path b visit).run s with
  | mk outcome s' =>
      cases outcome with
      | ok b' => exact ⟨b', rfl⟩
      | error failure => exact (hfails s failure s' hrun).elim

/-- For a reader that never fails, reading a page ends well just if the page holds a document, and
in a string that is no text just if the tokens lead to it in good order. If it ends otherwise, the
page is missing, is a folder or is malformed, and the failure says so. -/
theorem read_ends (hreader : ∀ b item, Run.FailsOnly (fun _ => False) (visit b item)) (b : β)
    (s : Session σ) :
    ((∃ b', ((read files path b visit).run s).1 = .ok b') ↔ ∃ doc, Holds files path doc) ∧
    (∀ fault, ((read files path b visit).run s).1 = .error (.undecodable fault)
      ↔ HoldsNonText files path fault) ∧
    ∀ failure, ((read files path b visit).run s).1 = .error failure →
      failure ∈ [.page (.missing path), .page (.folder path), .page (.malformed path)] ∨
        ∃ fault, failure = .undecodable fault := by
  cases hfailure : failure? files path with
  | none =>
      obtain ⟨b', houtcome⟩ := read_completed hreader b s hfailure
      simp only [← failure?_undecodable, hfailure, houtcome]
      exact ⟨⟨fun _ => holds_of_failure? hfailure, fun _ => ⟨b', rfl⟩⟩, by simp, by simp⟩
  | some failure =>
      simp only [← failure?_undecodable, hfailure, read_failed hreader b s hfailure]
      refine ⟨⟨by simp, ?_⟩, by simp, ?_⟩
      · rintro ⟨doc, hdoc⟩
        rw [failure?_of_holds hdoc] at hfailure
        cases hfailure
      · rintro failure' h
        obtain rfl := Except.error.inj h
        exact (failure?_cases hfailure).imp_right fun ⟨fault, hfault, _⟩ => ⟨fault, hfault⟩

/-- A page whose second record holds the escape of half a character. -/
def halvedFiles : Directory := fun path =>
  if path = "/d/page.json" then
    .file "[\x7b\"id\":\"ok\"\x7d,\x7b\"s\":\"\\udc00\"\x7d]".toUTF8.toList
  else .missing

/-- A reader that keeps the items it visits. -/
def keep (seen : List (Item Json)) (item : Item Json) : Run Unit (List (Item Json)) :=
  return seen ++ [item]

theorem halved_ends : ((read halvedFiles "/d/page.json" [] keep).start ()).1
    = .error (.undecodable ⟨0xED, 0, .continuation⟩) :=
  Run.eq_of_failed? (by decide +kernel)

/-- Reading such a page neither ends well nor in a failure of the page. -/
theorem halved_passes :
    ¬((∃ items, ((read halvedFiles "/d/page.json" [] keep).start ()).1 = .ok items) ∨
      ∃ fault, ((read halvedFiles "/d/page.json" [] keep).start ()).1 = .error (.page fault)) := by
  rw [halved_ends]
  simp

theorem halved_holds_nonText :
    (∀ seen item, Run.FailsOnly (fun _ => False) (keep seen item)) ∧
      HoldsNonText halvedFiles "/d/page.json" ⟨0xED, 0, .continuation⟩ ∧
      ¬∃ doc, Holds halvedFiles "/d/page.json" doc := by
  have hkeep : ∀ seen item, Run.FailsOnly (fun _ => False) (keep seen item) :=
    fun _ _ => Run.failsOnly_pure _
  refine ⟨hkeep, ((read_ends hkeep [] { own := () }).2.1 _).mp halved_ends, fun hdoc => ?_⟩
  obtain ⟨items, h⟩ := (read_ends hkeep [] { own := () }).1.mpr hdoc
  cases halved_ends.symm.trans h

end Staging.Page
