import Staging.Proofs.Page.Document

/-!
# What the grammar lets through

The events of a page that does not break off are the events of one document (`ofJson_of_complete`),
and the numbers in it can be stored. The invariant says of every place between two tokens what the
events still to come must be: they end the open containers one after the other, from the innermost
outward.
-/

namespace Staging.Page

open Json

/-! ## Numbers -/

theorem rank_ofDecimal_le (negative : Bool) (c : Nat) (e : Int) :
    (Double.ofDecimal negative c e).rank ≤ Double.infinityRank := by
  rw [Double.ofDecimal]
  split
  · exact Nat.zero_le _
  · split
    · exact Nat.le_refl _
    · split <;> exact Nat.min_le_left _ _

/-- A number that a page can hold: it is in range, and an event of its own. -/
def Storable (v : Json) : Prop := v.inRange = true ∧ Event.ofJson v = [.number v]

theorem storable_integer {negative : Bool} {digits : List Char} {v : Json}
    (h : integer? negative digits = some v) : Storable v := by
  rw [integer?] at h
  generalize Number.ofDigits (digitValues digits) = n at h
  split at h
  · cases h
  · rename_i hn
    obtain rfl := Option.some.inj h
    have hmax : maxInteger = 9223372036854775807 := by decide
    refine ⟨?_, rfl⟩
    rw [inRange, isSmall, Bool.and_eq_true, decide_eq_true_eq, decide_eq_true_eq]
    split <;> omega

theorem storable_double {negative : Bool} {digits : List Char} {e : Int} {v : Json}
    (h : double? negative digits e = some v) : Storable v := by
  have hle := rank_ofDecimal_le negative (Number.ofDigits (digitValues digits)) e
  rw [double?] at h
  split at h
  · cases h
  · rename_i hinf
    obtain rfl := Option.some.inj h
    have hne := beq_eq_false_iff_ne.mp (Bool.eq_false_iff.mpr hinf)
    exact ⟨decide_eq_true (Nat.lt_of_le_of_ne hle hne), rfl⟩

theorem storable_numeral {negative : Bool} {s rest : List Char} {v : Json}
    (h : numeral? negative s = some (v, rest)) : Storable v := by
  simp only [numeral?, Option.bind_eq_bind, Option.bind_eq_some_iff, Prod.exists,
    Option.pure_def] at h
  obtain ⟨whole, _, -, fraction, _, -, exponent, _, -, h⟩ := h
  split at h
  · obtain ⟨value, hvalue, hv⟩ := Option.bind_eq_some_iff.mp h
    obtain ⟨rfl, -⟩ := Prod.mk.inj (Option.some.inj hv)
    exact storable_integer hvalue
  · obtain ⟨value, hvalue, hv⟩ := Option.bind_eq_some_iff.mp h
    obtain ⟨rfl, -⟩ := Prod.mk.inj (Option.some.inj hv)
    exact storable_double hvalue

theorem storable_of_scan {s rest : List Char} {v : Json}
    (h : scan? s = some (.number v, rest)) : Storable v := by
  rw [scan?.eq_def] at h
  split at h
  case h_11 | h_12 =>
    obtain ⟨⟨w, tail⟩, hw, heq⟩ := Option.map_eq_some_iff.mp h
    obtain ⟨hnum, -⟩ := Prod.mk.inj heq
    obtain rfl := Token.number.inj hnum
    exact storable_numeral hw
  case h_10 =>
    obtain ⟨_, -, heq⟩ := Option.map_eq_some_iff.mp h
    cases heq
  all_goals cases h

/-! ## What is still to come -/

/-- The events that end these containers, innermost first. -/
def Closes : List Container → List Event → Prop
  | [], es => es = []
  | .array :: outer, es => ∃ items tail, itemsInRange items = true ∧
      es = Event.ofItems items ++ .endArray :: tail ∧ Closes outer tail
  | .object :: outer, es => ∃ members tail, membersInRange members = true ∧
      es = Event.ofMembers members ++ .endObject :: tail ∧ Closes outer tail

/-- The events of a value and of the end of these containers. -/
def Opens (within : List Container) (es : List Event) : Prop :=
  ∃ v tail, v.inRange = true ∧ es = Event.ofJson v ++ tail ∧ Closes within tail

/-- The events that may follow a place. -/
def Cursor.Completes (c : Cursor) (es : List Event) : Prop :=
  match c.expected with
  | .nothing => es = []
  | .value | .colon => Opens c.within es
  | .name => ∃ name rest, es = .key name :: rest ∧ Opens c.within rest
  | .comma | .firstItem | .firstName => Closes c.within es

/-- Only in an array is a first item expected, and only in an object a first name. -/
def Cursor.Sound (c : Cursor) : Prop :=
  match c.expected with
  | .firstItem => ∃ outer, c.within = .array :: outer
  | .firstName => ∃ outer, c.within = .object :: outer
  | _ => True

theorem completes_afterValue {within : List Container} {es : List Event} :
    (Cursor.afterValue within).Completes es ↔ Closes within es := by
  cases within <;> exact Iff.rfl

theorem sound_afterValue (within : List Container) : (Cursor.afterValue within).Sound := by
  cases within <;> trivial

theorem closes_item {outer : List Container} {es : List Event} (h : Opens (.array :: outer) es) :
    Closes (.array :: outer) es := by
  obtain ⟨v, tail, hv, rfl, items, tail, hitems, rfl, htail⟩ := h
  refine ⟨v :: items, tail, ?_, ?_, htail⟩
  · rw [itemsInRange, hv, hitems]
    rfl
  · rw [Event.ofItems, List.append_assoc]

theorem closes_member {outer : List Container} {es : List Event} (name : String)
    (h : Opens (.object :: outer) es) : Closes (.object :: outer) (.key name :: es) := by
  obtain ⟨v, tail, hv, rfl, members, tail, hmembers, rfl, htail⟩ := h
  refine ⟨(name, v) :: members, tail, ?_, ?_, htail⟩
  · rw [membersInRange, hv, hmembers]
    rfl
  · rw [Event.ofMembers, List.cons_append, List.append_assoc]

/-! ## One token -/

/-- What a token says of a place: whatever may follow the place after it may follow its event. -/
structure Leads (c : Cursor) (events : List Event) (c' : Cursor) : Prop where
  sound : c'.Sound
  completes : ∀ es, c'.Completes es → c.Completes (events ++ es)

theorem opens_scalar {v : Json} {within : List Container} {es : List Event} {e : Event}
    (hv : v.inRange = true) (he : Event.ofJson v = [e]) (hes : Closes within es) :
    Opens within (e :: es) :=
  ⟨v, es, hv, by rw [he]; rfl, hes⟩

theorem stepValue_opens {within : List Container} {t : Token} {e : Event} {c : Cursor}
    (ht : ∀ v, t = .number v → Storable v) (h : Cursor.stepValue within t = .ok (e, c)) :
    c.Sound ∧ ∀ es, c.Completes es → Opens within (e :: es) := by
  cases t with
  | openObject =>
      obtain ⟨rfl, rfl⟩ := Prod.mk.inj (Except.ok.inj h)
      refine ⟨⟨within, rfl⟩, fun es hes => ?_⟩
      obtain ⟨members, tail, hmembers, rfl, htail⟩ := hes
      exact ⟨.obj members, tail, hmembers, by simp [Event.ofJson], htail⟩
  | openArray =>
      obtain ⟨rfl, rfl⟩ := Prod.mk.inj (Except.ok.inj h)
      refine ⟨⟨within, rfl⟩, fun es hes => ?_⟩
      obtain ⟨items, tail, hitems, rfl, htail⟩ := hes
      exact ⟨.arr items, tail, hitems, by simp [Event.ofJson], htail⟩
  | null =>
      obtain ⟨rfl, rfl⟩ := Prod.mk.inj (Except.ok.inj h)
      exact ⟨sound_afterValue _, fun es hes =>
        opens_scalar (v := .null) rfl rfl (completes_afterValue.mp hes)⟩
  | boolean b =>
      obtain ⟨rfl, rfl⟩ := Prod.mk.inj (Except.ok.inj h)
      exact ⟨sound_afterValue _, fun es hes =>
        opens_scalar (v := .bool b) rfl rfl (completes_afterValue.mp hes)⟩
  | number v =>
      obtain ⟨rfl, rfl⟩ := Prod.mk.inj (Except.ok.inj h)
      obtain ⟨hrange, hevent⟩ := ht v rfl
      exact ⟨sound_afterValue _, fun es hes =>
        opens_scalar hrange hevent (completes_afterValue.mp hes)⟩
  | string content =>
      rw [Cursor.stepValue] at h
      cases hs : Cursor.decoded content with
      | error b => rw [hs] at h; cases h
      | ok s =>
          rw [hs] at h
          obtain ⟨rfl, rfl⟩ := Prod.mk.inj (Except.ok.inj h)
          exact ⟨sound_afterValue _, fun es hes =>
            opens_scalar (v := .str s) rfl rfl (completes_afterValue.mp hes)⟩
  | _ => cases h

theorem stepName_opens {within : List Container} {t : Token} {e : Event} {c : Cursor}
    (h : Cursor.stepName within t = .ok (e, c)) :
    c.Sound ∧ ∃ name, e = .key name ∧ ∀ es, c.Completes es → Opens within es := by
  cases t with
  | string content =>
      rw [Cursor.stepName] at h
      cases hs : Cursor.decoded content with
      | error b => rw [hs] at h; cases h
      | ok s =>
          rw [hs] at h
          obtain ⟨rfl, rfl⟩ := Prod.mk.inj (Except.ok.inj h)
          exact ⟨trivial, s, rfl, fun es hes => hes⟩
  | _ => cases h

theorem made_of_ok {x : Except Break (Event × Cursor)} {event : Option Event}
    {c : Cursor} (h : (x.map fun r => (some r.1, r.2)) = .ok (event, c)) :
    ∃ e, event = some e ∧ x = .ok (e, c) := by
  cases x with
  | error b => cases h
  | ok r =>
      obtain ⟨rfl, rfl⟩ := Prod.mk.inj (Except.ok.inj h)
      exact ⟨r.1, rfl, rfl⟩

theorem step_firstItem (outer : List Container) (t : Token) :
    Cursor.step ⟨.array :: outer, .firstItem⟩ t = match t with
      | .closeArray => .ok (some .endArray, Cursor.afterValue outer)
      | t => (Cursor.stepValue (.array :: outer) t).map fun r => (some r.1, r.2) := by
  cases t <;> rfl

theorem step_firstName (outer : List Container) (t : Token) :
    Cursor.step ⟨.object :: outer, .firstName⟩ t = match t with
      | .closeObject => .ok (some .endObject, Cursor.afterValue outer)
      | t => (Cursor.stepName (.object :: outer) t).map fun r => (some r.1, r.2) := by
  cases t <;> rfl

theorem step_comma {top : Container} {outer : List Container} {t : Token} {event : Option Event}
    {c : Cursor} (h : Cursor.step ⟨top :: outer, .comma⟩ t = .ok (event, c)) :
    Leads ⟨top :: outer, .comma⟩ event.toList c := by
  cases top with
  | array =>
      cases t with
      | closeArray =>
          obtain ⟨rfl, rfl⟩ := Prod.mk.inj (Except.ok.inj h)
          exact ⟨sound_afterValue _, fun es hes => ⟨[], es, rfl, rfl, completes_afterValue.mp hes⟩⟩
      | comma =>
          obtain ⟨rfl, rfl⟩ := Prod.mk.inj (Except.ok.inj h)
          exact ⟨trivial, fun es hes => closes_item hes⟩
      | _ => cases h
  | object =>
      cases t with
      | closeObject =>
          obtain ⟨rfl, rfl⟩ := Prod.mk.inj (Except.ok.inj h)
          exact ⟨sound_afterValue _, fun es hes => ⟨[], es, rfl, rfl, completes_afterValue.mp hes⟩⟩
      | comma =>
          obtain ⟨rfl, rfl⟩ := Prod.mk.inj (Except.ok.inj h)
          refine ⟨trivial, ?_⟩
          rintro es ⟨name, rest, rfl, hrest⟩
          exact closes_member name hrest
      | _ => cases h

/-- Every step keeps the promise of the place it starts from. -/
theorem step_leads {c c' : Cursor} {t : Token} {event : Option Event} (hc : c.Sound)
    (ht : ∀ v, t = .number v → Storable v) (h : c.step t = .ok (event, c')) :
    Leads c event.toList c' := by
  obtain ⟨within, expected⟩ := c
  cases expected with
  | value =>
      obtain ⟨e, rfl, hvalue⟩ := made_of_ok h
      obtain ⟨hsound, hopens⟩ := stepValue_opens ht hvalue
      exact ⟨hsound, hopens⟩
  | firstItem =>
      obtain ⟨outer, rfl⟩ := hc
      rw [step_firstItem] at h
      split at h
      · obtain ⟨rfl, rfl⟩ := Prod.mk.inj (Except.ok.inj h)
        exact ⟨sound_afterValue _, fun es hes => ⟨[], es, rfl, rfl, completes_afterValue.mp hes⟩⟩
      · obtain ⟨e, rfl, hvalue⟩ := made_of_ok h
        obtain ⟨hsound, hopens⟩ := stepValue_opens ht hvalue
        exact ⟨hsound, fun es hes => closes_item (hopens es hes)⟩
  | firstName =>
      obtain ⟨outer, rfl⟩ := hc
      rw [step_firstName] at h
      split at h
      · obtain ⟨rfl, rfl⟩ := Prod.mk.inj (Except.ok.inj h)
        exact ⟨sound_afterValue _, fun es hes => ⟨[], es, rfl, rfl, completes_afterValue.mp hes⟩⟩
      · obtain ⟨e, rfl, hname⟩ := made_of_ok h
        obtain ⟨hsound, name, rfl, hopens⟩ := stepName_opens hname
        exact ⟨hsound, fun es hes => closes_member name (hopens es hes)⟩
  | name =>
      obtain ⟨e, rfl, hname⟩ := made_of_ok h
      obtain ⟨hsound, name, rfl, hopens⟩ := stepName_opens hname
      exact ⟨hsound, fun es hes => ⟨name, es, rfl, hopens es hes⟩⟩
  | colon =>
      cases t with
      | colon =>
          obtain ⟨rfl, rfl⟩ := Prod.mk.inj (Except.ok.inj h)
          exact ⟨trivial, fun es hes => hes⟩
      | _ => cases h
  | comma =>
      cases within with
      | nil => cases h
      | cons top outer => exact step_comma h
  | nothing => cases h

/-! ## Whole pages -/

theorem exists_closes (within : List Container) : ∃ es, Closes within es := by
  induction within with
  | nil => exact ⟨[], rfl⟩
  | cons top outer ih =>
      obtain ⟨tail, htail⟩ := ih
      cases top with
      | array => exact ⟨_, [], tail, rfl, rfl, htail⟩
      | object => exact ⟨_, [], tail, rfl, rfl, htail⟩

/-- Wherever a page breaks off, it could have gone on. -/
theorem completes_broken (c : Cursor) (fault : Break) :
    ∃ more, c.Completes ([] ++ more) ∧ (some fault = none → more = []) := by
  obtain ⟨within, expected⟩ := c
  obtain ⟨tail, htail⟩ := exists_closes within
  have hopens : Opens within (.null :: tail) := opens_scalar (v := .null) rfl rfl htail
  cases expected with
  | value | colon => exact ⟨_, hopens, nofun⟩
  | name => exact ⟨.key "" :: _, ⟨"", _, rfl, hopens⟩, nofun⟩
  | firstItem | firstName | comma => exact ⟨_, htail, nofun⟩
  | nothing => exact ⟨[], rfl, nofun⟩

/-- The events that are delivered are how something begins that completes the place they begin at,
and all of it if they do not break off. -/
theorem eventsFrom_completes {steps : Nat} {c : Cursor} {s : List Char} {es : List Event}
    {b : Option Break} (hc : c.Sound) (h : eventsFrom steps c s = (es, b)) :
    ∃ more, c.Completes (es ++ more) ∧ (b = none → more = []) := by
  induction steps generalizing c s es with
  | zero =>
      obtain ⟨rfl, rfl⟩ := Prod.mk.inj h
      exact completes_broken c .malformed
  | succ steps ih =>
      rw [eventsFrom] at h
      split at h
      · rename_i hnothing
        obtain ⟨rfl, -⟩ := Prod.mk.inj h
        refine ⟨[], ?_, fun _ => rfl⟩
        rw [Cursor.Completes, hnothing]
        rfl
      · split at h
        · obtain ⟨rfl, rfl⟩ := Prod.mk.inj h
          exact completes_broken c .malformed
        · rename_i t rest hscan
          split at h
          · rename_i fault _
            obtain ⟨rfl, rfl⟩ := Prod.mk.inj h
            exact completes_broken c fault
          · rename_i event c' hstep
            have ht : ∀ v, t = .number v → Storable v :=
              fun v hv => storable_of_scan (hv ▸ hscan)
            have hleads := step_leads hc ht hstep
            obtain ⟨rfl, hbreak⟩ := Prod.mk.inj h
            obtain ⟨more, hmore, hwhole⟩ := ih hleads.sound (Prod.ext rfl hbreak)
            refine ⟨more, ?_, hwhole⟩
            rw [List.append_assoc]
            exact hleads.completes _ hmore

/-- The events of a page are how the events of a document begin whose numbers can be stored, and all
of them if the page is whole. -/
theorem ofJson_of_events {octets : List UInt8} {es : List Event} {b : Option Break}
    (h : events octets = (es, b)) : ∃ (doc : Json) (more : List Event), doc.inRange = true ∧
      es ++ more = Event.ofJson doc ∧ (b = none → more = []) := by
  obtain ⟨more, ⟨doc, tail, hrange, hes, rfl⟩, hwhole⟩ := eventsFrom_completes (c := {}) trivial h
  exact ⟨doc, more, hrange, by rw [hes, List.append_nil], hwhole⟩

/-- The events of a page that is whole are those of a document whose numbers can be stored. -/
theorem ofJson_of_complete {octets : List UInt8} {es : List Event}
    (h : events octets = (es, none)) :
    ∃ doc : Json, doc.inRange = true ∧ es = Event.ofJson doc := by
  obtain ⟨doc, more, hrange, hes, hwhole⟩ := ofJson_of_events h
  obtain rfl := hwhole rfl
  exact ⟨doc, hrange, by rw [← hes, List.append_nil]⟩

end Staging.Page
