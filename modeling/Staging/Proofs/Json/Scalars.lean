import Mathlib.Data.List.Nodup
import Staging.Proofs.Json.Pointer
import Staging.Proofs.Schema.MemberOrder

/-!
# The scalars of a value

The scalars other than null are listed with the way down to each. They are just what can be reached
(`mem_scalars_iff`), each once (`nodup_paths`), and a walk visits them one after another and puts
what the visits return in their places (`walk_eq`).
-/

namespace Staging.Json

/-- Whether a value is a scalar other than null. -/
def isScalar (v : Json) : Bool := v.kind != .null && v.kind != .array && v.kind != .object

/-! ## Listing scalars -/

/-- A place seen from one step further up. -/
def under (token : String) (place : List String × Json) : List String × Json :=
  (token :: place.1, place.2)

mutual

/-- The scalars of a value in order, each with the way down to it. -/
def scalars : Json → List (List String × Json)
  | .null => []
  | .arr items => itemScalars 0 items
  | .obj members => memberScalars members
  | .bool b => [([], .bool b)]
  | .int n => [([], .int n)]
  | .float x => [([], .float x)]
  | .str s => [([], .str s)]

/-- The scalars of the items from number `n` on. -/
def itemScalars (n : Nat) : List Json → List (List String × Json)
  | [] => []
  | v :: items => (scalars v).map (under (itemToken n)) ++ itemScalars (n + 1) items

def memberScalars : List (String × Json) → List (List String × Json)
  | [] => []
  | (name, v) :: members => (scalars v).map (under name) ++ memberScalars members

end

mutual

/-- The value with other values for its scalars, in their order. Everything else stays. -/
def refill : Json → List Json → Json
  | .null, _ => .null
  | .arr items, values => .arr (refillItems items values)
  | .obj members, values => .obj (refillMembers members values)
  | .bool b, values => values.headD (.bool b)
  | .int n, values => values.headD (.int n)
  | .float x, values => values.headD (.float x)
  | .str s, values => values.headD (.str s)

def refillItems : List Json → List Json → List Json
  | [], _ => []
  | v :: items, values =>
    refill v (values.take (scalars v).length)
      :: refillItems items (values.drop (scalars v).length)

def refillMembers : List (String × Json) → List Json → List (String × Json)
  | [], _ => []
  | (name, v) :: members, values =>
    (name, refill v (values.take (scalars v).length))
      :: refillMembers members (values.drop (scalars v).length)

end

/-! ## Walks -/

section Walk

variable {m : Type → Type} [Monad m] [LawfulMonad m] {α β γ : Type}

/-- What comes of two lists in turn can be told apart by the length of the first. -/
theorem mapM_append_split (f : α → m β) (l l' : List α) (g : List β → List β → m γ) :
    ((l ++ l').mapM f >>= fun values => g (values.take l.length) (values.drop l.length))
      = l.mapM f >>= fun values => l'.mapM f >>= g values := by
  induction l generalizing g with
  | nil => simp
  | cons a l ih =>
      simp only [List.cons_append, List.mapM_cons, bind_assoc, pure_bind, List.length_cons,
        List.take_succ_cons, List.drop_succ_cons]
      exact bind_congr fun b => ih fun values => g (b :: values)

variable (visit : String → Json → m Json)

/-- The visit to a place below a pointer. -/
def visitBelow (pointer : String) (place : List String × Json) : m Json :=
  visit (pointerBelow pointer place.1) place.2

/-- Visits to places below one step, and then to others. -/
theorem mapM_under_append (pointer token : String) (places others : List (List String × Json))
    (g : List Json → List Json → m γ) :
    ((places.map (under token) ++ others).mapM (visitBelow visit pointer) >>= fun values =>
        g (values.take places.length) (values.drop places.length))
      = places.mapM (visitBelow visit (stepDown pointer (memberToken token))) >>= fun values =>
          others.mapM (visitBelow visit pointer) >>= g values := by
  have hsplit := mapM_append_split (visitBelow visit pointer) (places.map (under token)) others g
  rw [List.length_map, List.mapM_map] at hsplit
  exact hsplit

mutual

/-- A walk visits the scalars in order, and then puts the results in their places. -/
theorem walk_eq : ∀ (pointer : String) (v : Json), v.walk visit pointer =
    (scalars v).mapM (visitBelow visit pointer) >>= fun values => pure (v.refill values)
  | _, .null => by simp [walk, scalars, refill]
  | _, .bool _ | _, .int _ | _, .float _ | _, .str _ => by
    simp [walk, scalars, refill, visitBelow, pointerBelow]
  | pointer, .arr items => by
    simp only [walk, scalars, refill, walkItems_eq pointer 0 items, bind_assoc, pure_bind]
  | pointer, .obj members => by
    simp only [walk, scalars, refill, walkMembers_eq pointer members, bind_assoc, pure_bind]

theorem walkItems_eq : ∀ (pointer : String) (n : Nat) (items : List Json),
    walkItems visit pointer n items =
      (itemScalars n items).mapM (visitBelow visit pointer) >>= fun values =>
        pure (refillItems items values)
  | _, _, [] => by simp [walkItems, itemScalars, refillItems]
  | pointer, n, v :: items => by
    have hsplit := mapM_under_append visit pointer (itemToken n) (scalars v)
      (itemScalars (n + 1) items) fun values more =>
        pure (refill v values :: refillItems items more)
    rw [memberToken_itemToken] at hsplit
    simp only [walkItems, walk_eq _ v, walkItems_eq pointer (n + 1) items, itemScalars, refillItems,
      bind_assoc, pure_bind, hsplit]

theorem walkMembers_eq : ∀ (pointer : String) (members : List (String × Json)),
    walkMembers visit pointer members =
      (memberScalars members).mapM (visitBelow visit pointer) >>= fun values =>
        pure (refillMembers members values)
  | _, [] => by simp [walkMembers, memberScalars, refillMembers]
  | pointer, (name, v) :: members => by
    have hsplit := mapM_under_append visit pointer name (scalars v) (memberScalars members)
      fun values more => pure ((name, refill v values) :: refillMembers members more)
    simp only [walkMembers, walk_eq _ v, walkMembers_eq pointer members, memberScalars,
      refillMembers, bind_assoc, pure_bind, hsplit]

end

end Walk

/-! ## Places of scalars -/

variable {v s : Json} {path : List String} {place : List String × Json}

theorem mem_memberScalars_iff {members : Members} : place ∈ memberScalars members ↔
    ∃ p ∈ members, ∃ inner ∈ p.2.scalars, place = under p.1 inner := by
  induction members with
  | nil => simp [memberScalars]
  | cons p members ih =>
      rw [memberScalars, List.mem_append, ih, List.exists_mem_cons_iff, List.mem_map]
      simp only [eq_comm (a := place)]

theorem mem_itemScalars_iff {n : Nat} {items : List Json} : place ∈ itemScalars n items ↔
    ∃ i v, items[i]? = some v ∧ ∃ inner ∈ v.scalars, place = under (itemToken (n + i)) inner := by
  induction items generalizing n with
  | nil => simp [itemScalars]
  | cons v items ih =>
      rw [itemScalars, List.mem_append, ih, List.mem_map]
      constructor
      · rintro (⟨inner, hinner, rfl⟩ | ⟨i, w, hw, inner, hinner, rfl⟩)
        · exact ⟨0, v, rfl, inner, hinner, rfl⟩
        · exact ⟨i + 1, w, hw, inner, hinner, by rw [Nat.add_right_comm]; rfl⟩
      · rintro ⟨i, w, hw, inner, hinner, rfl⟩
        cases i with
        | zero =>
            obtain rfl := Option.some.inj hw
            exact .inl ⟨inner, hinner, rfl⟩
        | succ i => exact .inr ⟨i, w, hw, inner, hinner, by rw [Nat.add_right_comm]; rfl⟩

theorem nil_mem_scalars_iff : ([], s) ∈ v.scalars ↔ v = s ∧ isScalar s = true := by
  cases v with
  | null =>
      refine ⟨fun h => absurd h List.not_mem_nil, ?_⟩
      rintro ⟨rfl, h⟩
      cases h
  | arr items =>
      constructor
      · intro h
        obtain ⟨_, _, _, _, _, heq⟩ := mem_itemScalars_iff.mp h
        cases heq
      · rintro ⟨rfl, h⟩
        cases h
  | obj members =>
      constructor
      · intro h
        obtain ⟨_, _, _, _, heq⟩ := mem_memberScalars_iff.mp h
        cases heq
      · rintro ⟨rfl, h⟩
        cases h
  | _ =>
      constructor
      · intro h
        obtain rfl := (Prod.mk.inj (List.mem_singleton.mp h)).2
        exact ⟨rfl, rfl⟩
      · rintro ⟨rfl, -⟩
        exact List.mem_singleton.mpr rfl

/-- The scalars are what can be reached on some way down. -/
theorem mem_scalars_iff (hv : v.Unrepeated) :
    (path, s) ∈ v.scalars ↔ v.follow? path = some s ∧ isScalar s = true := by
  induction path generalizing v with
  | nil => rw [nil_mem_scalars_iff, follow?, List.foldlM_nil, Option.pure_def, Option.some.injEq]
  | cons token path ih =>
      have hplace : ∀ {step inner}, (token :: path, s) = under step inner ↔
          token = step ∧ (path, s) = inner := by
        intro step inner
        rw [under, Prod.mk.injEq, List.cons.injEq, Prod.ext_iff, and_assoc]
      rw [follow?_cons, Option.bind_eq_some_iff]
      cases v with
      | arr items =>
          have hitems := eachItem_iff.mp hv
          rw [scalars, mem_itemScalars_iff]
          simp only [hplace, child?_arr_eq_some_iff, Nat.zero_add]
          constructor
          · rintro ⟨n, v, hn, inner, hinner, rfl, rfl⟩
            have hreached := (ih (hitems v (List.mem_of_getElem? hn))).mp hinner
            exact ⟨⟨v, ⟨n, rfl, hn⟩, hreached.1⟩, hreached.2⟩
          · rintro ⟨⟨v, ⟨n, rfl, hn⟩, hreached⟩, hscalar⟩
            have hinner := (ih (hitems v (List.mem_of_getElem? hn))).mpr ⟨hreached, hscalar⟩
            exact ⟨n, v, hn, _, hinner, rfl, rfl⟩
      | obj members =>
          have hmembers := eachMember_iff.mp hv.2
          rw [scalars, mem_memberScalars_iff, child?, Members.get?]
          simp only [hplace, Members.lookup_eq_some_iff hv.1]
          constructor
          · rintro ⟨⟨_, v⟩, hp, inner, hinner, rfl, rfl⟩
            have hreached := (ih (hmembers _ hp)).mp hinner
            exact ⟨⟨v, hp, hreached.1⟩, hreached.2⟩
          · rintro ⟨⟨v, hp, hreached⟩, hscalar⟩
            have hinner := (ih (hmembers _ hp)).mpr ⟨hreached, hscalar⟩
            exact ⟨(token, v), hp, _, hinner, rfl, rfl⟩
      | _ => simp [scalars, child?]

/-! ## No place twice -/

/-- Places below one token, and others that do not begin with it. -/
theorem nodup_under {token : String} {places more : List (List String × Json)}
    (hplaces : (places.map Prod.fst).Nodup) (hmore : (more.map Prod.fst).Nodup)
    (hnew : ∀ place ∈ more, place.1.head? ≠ some token) :
    ((places.map (under token) ++ more).map Prod.fst).Nodup := by
  have hpaths : (places.map (under token)).map Prod.fst
      = (places.map Prod.fst).map (token :: ·) := by
    rw [List.map_map, List.map_map]
    rfl
  rw [List.map_append, hpaths]
  refine (hplaces.map List.cons_injective).append hmore ?_
  intro path hunder hother
  obtain ⟨_, -, rfl⟩ := List.mem_map.mp hunder
  obtain ⟨place, hplace, hpath⟩ := List.mem_map.mp hother
  exact hnew place hplace (by rw [hpath]; rfl)

theorem itemToken_injective {n n' : Nat} (h : itemToken n = itemToken n') : n = n' := by
  have hdigits := String.ofList_injective h
  rw [← Nat.ofDigitChars_ten_toDigits (n := n), hdigits, Nat.ofDigitChars_ten_toDigits]

mutual

theorem nodup_paths : ∀ v : Json, v.Unrepeated → (v.scalars.map Prod.fst).Nodup
  | .null, _ => List.nodup_nil
  | .bool _, _ | .int _, _ | .float _, _ | .str _, _ => List.nodup_singleton _
  | .arr items, h => nodup_itemPaths 0 items h
  | .obj members, ⟨hnames, h⟩ => nodup_memberPaths members hnames h

theorem nodup_itemPaths : ∀ (n : Nat) (items : List Json), EachItem List.Nodup items →
    ((itemScalars n items).map Prod.fst).Nodup
  | _, [], _ => List.nodup_nil
  | n, v :: items, ⟨hv, h⟩ => by
    refine nodup_under (nodup_paths v hv) (nodup_itemPaths (n + 1) items h) ?_
    intro place hplace hhead
    obtain ⟨i, _, _, _, _, rfl⟩ := mem_itemScalars_iff.mp hplace
    have hnumber := itemToken_injective (Option.some.inj hhead)
    omega

theorem nodup_memberPaths : ∀ members : List (String × Json), (members.map Prod.fst).Nodup →
    EachMember List.Nodup members → ((memberScalars members).map Prod.fst).Nodup
  | [], _, _ => List.nodup_nil
  | (name, v) :: members, hnames, ⟨hv, h⟩ => by
    rw [List.map_cons, List.nodup_cons] at hnames
    refine nodup_under (nodup_paths v hv) (nodup_memberPaths members hnames.2 h) ?_
    intro place hplace hhead
    obtain ⟨p, hp, _, _, rfl⟩ := mem_memberScalars_iff.mp hplace
    exact hnames.1 (List.mem_map.mpr ⟨p, hp, Option.some.inj hhead⟩)

end

/-! ## Places in canonical form -/

theorem getElem?_canonicalItems (items : List Json) (n : Nat) :
    (canonicalItems items)[n]? = items[n]?.map canonical := by
  induction items generalizing n with
  | nil => rfl
  | cons v items ih =>
      cases n with
      | zero => rfl
      | succ n => exact ih n

theorem child?_canonical (hv : v.Unrepeated) (token : String) :
    v.canonical.child? token = (v.child? token).map canonical := by
  cases v with
  | arr items =>
      rw [canonical, child?, child?, Option.map_bind]
      exact congrArg _ (funext fun n => getElem?_canonicalItems items n)
  | obj members => exact member?_canonical hv.1 token
  | _ => rfl

theorem unrepeated_child {token : String} {w : Json} (hv : v.Unrepeated)
    (h : v.child? token = some w) : w.Unrepeated := by
  cases v with
  | arr items =>
      obtain ⟨n, -, hn⟩ := child?_arr_eq_some_iff.mp h
      exact eachItem_iff.mp hv w (List.mem_of_getElem? hn)
  | obj members => exact eachMember_iff.mp hv.2 _ (Members.mem_of_lookup h)
  | _ => cases h

/-- A way down leads to the same place in canonical form. -/
theorem follow?_canonical (hv : v.Unrepeated) (path : List String) :
    v.canonical.follow? path = (v.follow? path).map canonical := by
  induction path generalizing v with
  | nil => rfl
  | cons token path ih =>
      rw [follow?_cons, follow?_cons, child?_canonical hv]
      cases hchild : v.child? token with
      | none => rfl
      | some w => exact ih (unrepeated_child hv hchild)

theorem canonical_eq_scalar_iff (hs : isScalar s = true) : v.canonical = s ↔ v = s := by
  cases v with
  | arr items =>
      constructor <;> rintro rfl <;> cases hs
  | obj members =>
      constructor <;> rintro rfl <;> cases hs
  | _ => rfl

theorem unrepeated_canonical (hv : v.Unrepeated) : v.canonical.Unrepeated :=
  EachObject.imp (fun _ => nodup_of_namesOrdered) _ (ordered_canonical v hv)

theorem mem_scalars_canonical_iff (hv : v.Unrepeated) :
    (path, s) ∈ v.canonical.scalars ↔ v.follow? path = some s ∧ isScalar s = true := by
  rw [mem_scalars_iff (unrepeated_canonical hv), follow?_canonical hv, Option.map_eq_some_iff]
  refine and_congr_left fun hs => ?_
  simp only [canonical_eq_scalar_iff hs, exists_eq_right]

end Staging.Json
