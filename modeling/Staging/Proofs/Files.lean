import Mathlib.Data.List.Nodup
import Staging.Files

/-!
# Paths of input files

What is read for a table has one of three roles: it tells how many pages there are, it is the page
of a number, or it is the test page. A file is named by its table, an underscore and an ending that
the role determines. Names of tables may hold underscores and endings do not, so the two part at the
last underscore (`eq_and_eq_of_append_underscore`). Hence a path tells the table and the role, and
no file is read for two tables or twice for one (`inputs_apart`), not even where the name of a table
goes on from that of another one just as a file of that other one does.
-/

namespace Staging.Files

/-! ## Decimal numbers -/

theorem toList_decimal (n : Int) :
    (decimal n).toList = (if n < 0 then ['-'] else []) ++ Nat.toDigits 10 n.natAbs := by
  rw [decimal, String.toList_append, String.toList_ofList, apply_ite String.toList]
  rfl

theorem not_mem_toDigits {c : Char} (hc : c.isDigit = false) (n : Nat) : c ∉ Nat.toDigits 10 n := by
  intro hmem
  have hdigit := Nat.isDigit_of_mem_toDigits (by decide) (by decide) hmem
  rw [hc] at hdigit
  cases hdigit

theorem not_mem_decimal {c : Char} (hc : c.isDigit = false) (hminus : c ≠ '-') (n : Int) :
    c ∉ (decimal n).toList := by
  rw [toList_decimal, List.mem_append, not_or]
  refine ⟨?_, not_mem_toDigits hc _⟩
  split <;> simp [hminus]

theorem toDigits_injective {m n : Nat} (h : Nat.toDigits 10 m = Nat.toDigits 10 n) : m = n :=
  calc m = Nat.ofDigitChars 10 (Nat.toDigits 10 m) 0 := Nat.ofDigitChars_ten_toDigits.symm
    _ = Nat.ofDigitChars 10 (Nat.toDigits 10 n) 0 := by rw [h]
    _ = n := Nat.ofDigitChars_ten_toDigits

theorem decimal_injective {m n : Int} (h : (decimal m).toList = (decimal n).toList) : m = n := by
  have hminus (d : Nat) (s : List Char) : Nat.toDigits 10 d ≠ '-' :: s := fun heq =>
    not_mem_toDigits (c := '-') rfl d (heq ▸ List.mem_cons_self)
  rw [toList_decimal, toList_decimal] at h
  split at h <;> split at h
  · have := toDigits_injective (List.cons.inj h).2
    omega
  · exact absurd h.symm (hminus _ _)
  · exact absurd h (hminus _ _)
  · have := toDigits_injective h
    omega

/-! ## Names of files -/

/-- What a file is read for. -/
inductive Role
  | count
  | page (number : Int)
  | test
  deriving DecidableEq, Repr

namespace Role

/-- The path of a table's file. -/
def path (dir table : String) : Role → String
  | count => countFile dir table
  | page number => pageFile dir table number
  | test => testFile dir table

/-- What follows the table and an underscore in the name of a file. -/
def ending : Role → String
  | count => "count.txt"
  | page number => decimal number ++ ".json"
  | test => "test.json"

theorem path_eq_join (dir table : String) (r : Role) :
    r.path dir table = join dir (table ++ "_" ++ r.ending) := by
  cases r with
  | count => rw [String.append_assoc]; rfl
  | page number => rw [path, pageFile, ending, String.append_assoc]
  | test => rw [String.append_assoc]; rfl

theorem not_mem_ending_page {c : Char} (hdigit : c.isDigit = false) (hminus : c ≠ '-')
    (hjson : c ∉ ".json".toList) (n : Int) : c ∉ (page n).ending.toList := by
  rw [ending, String.toList_append, List.mem_append, not_or]
  exact ⟨not_mem_decimal hdigit hminus n, hjson⟩

theorem underscore_not_mem_ending (r : Role) : '_' ∉ r.ending.toList := by
  cases r with
  | count => decide
  | page n => exact not_mem_ending_page (by decide) (by decide) (by decide) n
  | test => decide

/-- The ending of a page is the only one without a `t`. -/
theorem ending_injective {r s : Role} (h : r.ending.toList = s.ending.toList) : r = s := by
  have hpage (n : Int) : 't' ∉ (page n).ending.toList :=
    not_mem_ending_page (by decide) (by decide) (by decide) n
  have hcount : 't' ∈ count.ending.toList := by decide
  have htest : 't' ∈ test.ending.toList := by decide
  cases r with
  | count =>
      cases s with
      | count => rfl
      | page n => exact absurd (h ▸ hcount) (hpage n)
      | test => exact absurd h (by decide)
  | page m =>
      cases s with
      | count => exact absurd (h ▸ hcount) (hpage m)
      | page n =>
          rw [ending, ending, String.toList_append, String.toList_append] at h
          exact congrArg page (decimal_injective (List.append_cancel_right h))
      | test => exact absurd (h ▸ htest) (hpage m)
  | test =>
      cases s with
      | count => exact absurd h (by decide)
      | page n => exact absurd (h ▸ htest) (hpage n)
      | test => rfl

end Role

/-! ## Paths -/

/-- Names that do not begin at the root are all joined to the same text. -/
theorem exists_join_eq (dir : String) :
    ∃ base, ∀ name : String, name.startsWith "/" = false → join dir name = base ++ name := by
  by_cases h : (dir.isEmpty || dir.endsWith "/") = true
  · exact ⟨dir, fun name hname => by rw [join, hname, if_neg Bool.false_ne_true, if_pos h]⟩
  · exact ⟨dir ++ "/", fun name hname => by rw [join, hname, if_neg Bool.false_ne_true, if_neg h]⟩

theorem startsWith_append_underscore {t : String} (ht : t.startsWith "/" = false) (s : String) :
    (t ++ "_" ++ s).startsWith "/" = false := by
  have hslash : "/".toList = ['/'] := rfl
  rw [String.startsWith_string_eq_false_iff, hslash,
    List.singleton_prefix_iff_head?_eq_some] at ht ⊢
  rw [String.toList_append, String.toList_append, List.append_assoc, List.head?_append]
  cases hhead : t.toList.head? with
  | none => exact fun h => absurd (Option.some.inj h) (by decide)
  | some c =>
      rw [hhead] at ht
      exact ht

/-- Text parts in one way at its last underscore. -/
theorem eq_and_eq_of_append_underscore {s t a b : List Char} (ha : '_' ∉ a) (hb : '_' ∉ b)
    (h : s ++ '_' :: a = t ++ '_' :: b) : s = t ∧ a = b := by
  induction s generalizing t with
  | nil =>
      cases t with
      | nil => exact ⟨rfl, (List.cons.inj h).2⟩
      | cons c t =>
          obtain ⟨-, rfl⟩ := List.cons.inj h
          exact absurd (List.mem_append_right t List.mem_cons_self) ha
  | cons c s ih =>
      cases t with
      | nil =>
          obtain ⟨-, rfl⟩ := List.cons.inj h
          exact absurd (List.mem_append_right s List.mem_cons_self) hb
      | cons d t =>
          obtain ⟨rfl, hrest⟩ := List.cons.inj h
          obtain ⟨rfl, hending⟩ := ih hrest
          exact ⟨rfl, hending⟩

theorem Role.path_inj (dir : String) {t u : String} (ht : t.startsWith "/" = false)
    (hu : u.startsWith "/" = false) (r s : Role) :
    r.path dir t = s.path dir u ↔ t = u ∧ r = s := by
  constructor
  · intro h
    obtain ⟨base, hbase⟩ := exists_join_eq dir
    rw [path_eq_join, path_eq_join, hbase _ (startsWith_append_underscore ht _),
      hbase _ (startsWith_append_underscore hu _), String.append_right_inj] at h
    have hchars : t.toList ++ '_' :: r.ending.toList = u.toList ++ '_' :: s.ending.toList := by
      simpa using congrArg String.toList h
    obtain ⟨htable, hending⟩ := eq_and_eq_of_append_underscore r.underscore_not_mem_ending
      s.underscore_not_mem_ending hchars
    exact ⟨String.ext htable, ending_injective hending⟩
  · rintro ⟨rfl, rfl⟩
    rfl

/-- What is read for a table with this page count, in the order of reading. -/
def roles (files : Directory) (dir table : String) (count : Int) : List Role :=
  .count :: ((List.range count.toNat).map (fun n : Nat => .page n)
    ++ if files (testFile dir table) = .missing then [] else [.test])

theorem inputs_eq (files : Directory) (dir table : String) (count : Int) :
    countFile dir table :: pages files dir table count
      = (roles files dir table count).map (Role.path dir table) := by
  rw [roles, List.map_cons, List.map_append, List.map_map, pages, apply_ite (List.map _)]
  rfl

theorem nodup_roles (files : Directory) (dir table : String) (count : Int) :
    (roles files dir table count).Nodup := by
  have hpages : ((List.range count.toNat).map fun n : Nat => Role.page n).Nodup :=
    List.nodup_range.map fun _ _ h => Int.ofNat.inj (Role.page.inj h)
  unfold roles
  split
  · simpa using hpages
  · simpa [List.nodup_append] using hpages

/-- Of tables whose names do not begin at the root, no two have a file of one path, and no table has
one path for two roles or for two pages. So no file is read twice for a table, and none for two
tables. -/
theorem inputs_apart (dir : String) {t u : String} (ht : t.startsWith "/" = false)
    (hu : u.startsWith "/" = false) :
    (∀ r s : Role, r.path dir t = s.path dir u ↔ t = u ∧ r = s) ∧
      ∀ (files : Directory) (count : Int),
        (countFile dir t :: pages files dir t count).Nodup ∧
          (t ≠ u → ∀ other : Int, List.Disjoint (countFile dir t :: pages files dir t count)
            (countFile dir u :: pages files dir u other)) := by
  refine ⟨Role.path_inj dir ht hu, fun files count => ⟨?_, fun hne other => ?_⟩⟩
  · rw [inputs_eq]
    exact (nodup_roles files dir t count).map fun r s h => ((Role.path_inj dir ht ht r s).mp h).2
  · rw [inputs_eq, inputs_eq]
    intro path hmem hother
    obtain ⟨r, -, rfl⟩ := List.mem_map.mp hmem
    obtain ⟨s, -, hsame⟩ := List.mem_map.mp hother
    exact hne ((Role.path_inj dir hu ht s r).mp hsame).1.symm

/-- A table may be named as the first page of another one. -/
theorem numberedUsers_apart :
    "users".startsWith "/" = false ∧ "users_0".startsWith "/" = false ∧ "users" ≠ "users_0" ∧
      (∀ r s : Role, r.path "/d" "users" ≠ s.path "/d" "users_0") ∧
      (countFile "/d" "users" :: pages (fun _ => .file []) "/d" "users" 2).Nodup ∧
      List.Disjoint (countFile "/d" "users" :: pages (fun _ => .file []) "/d" "users" 2)
        (countFile "/d" "users_0" :: pages (fun _ => .file []) "/d" "users_0" 1) := by
  have husers : "users".startsWith "/" = false := by decide +kernel
  have hnumbered : "users_0".startsWith "/" = false := by decide +kernel
  have hne : "users" ≠ "users_0" := by decide
  obtain ⟨hpaths, hinputs⟩ := inputs_apart "/d" husers hnumbered
  obtain ⟨hnodup, hdisjoint⟩ := hinputs (fun _ => .file []) 2
  exact ⟨husers, hnumbered, hne, fun r s h => hne ((hpaths r s).mp h).1, hnodup, hdisjoint hne 1⟩

/-- A table that is named from the root may name the files of one below the load directory. -/
example : (Role.page 0).path "/d" "/d/users" = (Role.page 0).path "/d" "users" := by decide +kernel

end Staging.Files
