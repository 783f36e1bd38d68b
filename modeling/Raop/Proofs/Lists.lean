/-
# Facts about lists

What several parts of the theory need of lists, whatever their members are:
members that are found by a key of their own, the last member of a kind, and
lists that are made member by member, all at once or not at all.

Key theorems: `find?_of_nodup`, `getLast?_filter_concat`, `getLast?_filter_eq_some_iff`,
`of_getLast?_filter`, `map_eq_iff_forall₂`, `exists_forall₂`, `forall₂_comp_iff`,
`mapM_eq_ok_iff`, `mapM_eq_some_iff`, `mapM_eq_none_iff`.
-/
import Mathlib.Data.List.Forall2
import Mathlib.Data.List.Nodup

namespace Raop

variable {α β : Type}

/-! ### Found by a key -/

/-- Of members with different keys, each one is found by its key. -/
theorem find?_of_nodup {κ : Type} {key : α → κ} {is : α → Bool} {xs : List α} {x : α}
    (h : (xs.map key).Nodup) (hx : x ∈ xs) (his : ∀ y, is y = true ↔ key y = key x) :
    xs.find? is = some x := by
  obtain ⟨y, hy⟩ := Option.isSome_iff_exists.1 (List.find?_isSome.2 ⟨x, hx, (his x).2 rfl⟩)
  have hkey : key y = key x := (his y).1 (List.find?_some hy)
  rw [hy, List.inj_on_of_nodup_map h (List.mem_of_find?_eq_some hy) hx hkey]

/-! ### The last of a kind -/

section Last

variable {p : α → Bool} {xs : List α} {x : α}

theorem getLast?_filter_concat (p : α → Bool) (xs : List α) (x : α) :
    ((xs ++ [x]).filter p).getLast? = if p x then some x else (xs.filter p).getLast? := by
  cases h : p x <;> simp [h]

/-- Behind the last member of a kind there is none of it. -/
theorem getLast?_filter_eq_some_iff : (xs.filter p).getLast? = some x ↔
    ∃ front back, xs = front ++ x :: back ∧ p x = true ∧ ∀ y ∈ back, p y = false := by
  rw [List.getLast?_eq_head?_reverse, ← List.filter_reverse, List.head?_filter,
    List.find?_eq_some_iff_append]
  simp only [List.reverse_eq_append_iff, List.reverse_cons, Bool.not_eq_true']
  constructor
  · rintro ⟨hx, behind, before, rfl, hbehind⟩
    exact ⟨before.reverse, behind.reverse, by simp, hx, fun y hy => hbehind y (List.mem_reverse.1 hy)⟩
  · rintro ⟨front, back, rfl, hx, hback⟩
    exact ⟨hx, back.reverse, front.reverse, by simp, fun y hy => hback y (List.mem_reverse.1 hy)⟩

theorem of_getLast?_filter (h : (xs.filter p).getLast? = some x) : x ∈ xs ∧ p x = true :=
  List.mem_filter.1 (List.mem_of_getLast? h)

end Last

/-! ### Member by member -/

/-- Members that are all changed in one way, said by what that way is about. -/
theorem map_eq_iff_forall₂ {f : α → β} {r : α → β → Prop} {as : List α} {bs : List β}
    (h : ∀ {a b}, f a = b ↔ r a b) : as.map f = bs ↔ List.Forall₂ r as bs := by
  rw [← List.forall₂_eq_eq_eq, List.forall₂_map_left_iff]
  simp only [h]

/-- Members that are each related to something are related to a list. -/
theorem exists_forall₂ {r : α → β → Prop} {as : List α} :
    (∃ bs, List.Forall₂ r as bs) ↔ ∀ a ∈ as, ∃ b, r a b := by
  induction as with
  | nil => simp
  | cons a as ih =>
    rw [List.forall_mem_cons, ← ih]
    constructor
    · rintro ⟨_, hb | ⟨hb, hbs⟩⟩
      exact ⟨⟨_, hb⟩, _, hbs⟩
    · rintro ⟨⟨b, hb⟩, bs, hbs⟩
      exact ⟨b :: bs, .cons hb hbs⟩

/-- Members that are related through something are related through a list. -/
theorem forall₂_comp_iff {γ : Type} {r : α → β → Prop} {s : β → γ → Prop} {as : List α} {cs : List γ} :
    List.Forall₂ (fun a c => ∃ b, r a b ∧ s b c) as cs ↔
      ∃ bs, List.Forall₂ r as bs ∧ List.Forall₂ s bs cs := by
  constructor
  · intro h
    induction h with
    | nil => exact ⟨[], .nil, .nil⟩
    | cons hac _ ih =>
      obtain ⟨b, hab, hbc⟩ := hac
      obtain ⟨bs, has, hcs⟩ := ih
      exact ⟨b :: bs, .cons hab has, .cons hbc hcs⟩
  · rintro ⟨bs, has, hcs⟩
    induction has generalizing cs with
    | nil =>
      obtain rfl := List.forall₂_nil_left_iff.1 hcs
      exact .nil
    | cons hab _ ih =>
      obtain ⟨c, cs', hbc, hcs', rfl⟩ := List.forall₂_cons_left_iff.1 hcs
      exact .cons ⟨_, hab, hbc⟩ (ih hcs')

/-- All are read if each one is. -/
theorem mapM_eq_ok_iff {ε : Type} {f : α → Except ε β} : ∀ {xs : List α} {ys : List β},
    xs.mapM f = .ok ys ↔ List.Forall₂ (fun x y => f x = .ok y) xs ys
  | [], ys => by cases ys <;> simp [pure, Except.pure]
  | x :: xs, ys => by
    have ih (zs : List β) : xs.mapM f = .ok zs ↔ List.Forall₂ (fun x y => f x = .ok y) xs zs :=
      mapM_eq_ok_iff
    rw [List.mapM_cons]
    cases hx : f x with
    | error e => cases ys <;> simp [bind, Except.bind, hx]
    | ok y =>
      cases hxs : xs.mapM f with
      | error e => cases ys <;> simp [bind, Except.bind, hx, ← ih, hxs]
      | ok rest => cases ys <;> simp [bind, Except.bind, pure, Except.pure, hx, ← ih, hxs]

theorem mapM_eq_some_iff {f : α → Option β} : ∀ {xs : List α} {ys : List β},
    xs.mapM f = some ys ↔ xs.map f = ys.map some
  | [], ys => by
    rw [List.mapM_nil, List.map_nil]
    cases ys <;> simp
  | x :: xs, ys => by
    rw [List.mapM_cons, List.map_cons]
    cases hx : f x with
    | none => cases ys <;> simp
    | some y =>
      cases ys with
      | nil => cases xs.mapM f <;> simp
      | cons y' ys =>
        have ih : xs.mapM f = some ys ↔ xs.map f = ys.map some := mapM_eq_some_iff
        simp only [Option.bind_eq_bind, Option.bind_some, List.map_cons, List.cons.injEq,
          Option.some.injEq, ← ih]
        cases xs.mapM f <;> simp

theorem mapM_eq_none_iff {f : α → Option β} : ∀ {xs : List α},
    xs.mapM f = none ↔ ∃ x ∈ xs, f x = none
  | [] => by simp
  | x :: xs => by
    have ih : xs.mapM f = none ↔ ∃ x ∈ xs, f x = none := mapM_eq_none_iff
    rw [List.mapM_cons, List.exists_mem_cons_iff, ← ih]
    cases f x <;> cases xs.mapM f <;> simp

end Raop
