import Mathlib.Data.List.Basic

/-!
# Computations with early refusals

`Except` computations written as a sequence of refusals (`refuse c e`: stop with `e` when `c`) and
the inversion lemmas that peel a successful one apart: `bind_ok` for a step, `refuse_ok` for a
check, `forAll_ok_iff` for a check of every element of a list, `distinct_ok_iff` for one that also
refuses repeated keys.
-/

namespace Check

variable {ε α β : Type}

/-- Stop with `e` when `c` holds. -/
def refuse (c : Bool) (e : ε) : Except ε Unit := if c then .error e else .ok ()

/-- The value, or `e` when there is none. -/
def orElse (x : Option α) (e : ε) : Except ε α :=
  match x with
  | some a => .ok a
  | none => .error e

@[simp] theorem ok_bind (a : α) (f : α → Except ε β) : (Except.ok a >>= f) = f a := rfl

@[simp] theorem error_bind (e : ε) (f : α → Except ε β) :
    ((Except.error e : Except ε α) >>= f) = .error e := rfl

@[simp] theorem pure_eq_ok (a : α) : (pure a : Except ε α) = .ok a := rfl

@[simp] theorem refuse_true (e : ε) : refuse true e = .error e := rfl

@[simp] theorem refuse_false (e : ε) : refuse false e = .ok () := rfl

@[simp] theorem orElse_some (a : α) (e : ε) : orElse (some a) e = .ok a := rfl

@[simp] theorem orElse_none (e : ε) : orElse (none : Option α) e = .error e := rfl

theorem except_map_bind {γ : Type} (x : Except ε α) (f : α → Except ε β) (g : β → γ) :
    (x >>= f).map g = x >>= fun a => (f a).map g := by
  cases x with
  | error e => rfl
  | ok a => rfl

theorem map_bind_congr {γ : Type} {x : Except ε α} {f f' : α → Except ε β} {g : β → γ}
    (h : ∀ a, (f a).map g = (f' a).map g) : (x >>= f).map g = (x >>= f').map g := by
  cases x with
  | error e => rfl
  | ok a => exact h a

/-- A successful sequence is two successful computations. -/
theorem bind_ok {x : Except ε α} {f : α → Except ε β} {b : β} (h : (x >>= f) = .ok b) :
    ∃ a, x = .ok a ∧ f a = .ok b := by
  cases x with
  | error e => cases h
  | ok a => exact ⟨a, rfl, h⟩

theorem refuse_ok {c : Bool} {e : ε} {u : Unit} (h : refuse c e = .ok u) : c = false := by
  cases c with
  | false => rfl
  | true => cases h

theorem refuse_ok_iff {c : Bool} {e : ε} : refuse c e = .ok () ↔ c = false := by
  cases c <;> simp [refuse]

theorem orElse_ok {x : Option α} {e : ε} {a : α} (h : orElse x e = .ok a) : x = some a := by
  cases x with
  | none => cases h
  | some b => cases h; rfl

/-- A check that passed, and the rest. -/
theorem refuse_bind_ok {c : Bool} {e : ε} {f : Unit → Except ε β} {b : β}
    (h : (refuse c e >>= f) = .ok b) : c = false ∧ f () = .ok b := by
  obtain ⟨_, hc, hf⟩ := bind_ok h
  exact ⟨refuse_ok hc, hf⟩

theorem refuse_bind_error {c : Bool} {e e' : ε} {f : Unit → Except ε β} (h : (refuse c e >>= f) = .error e') :
    e' = e ∨ f () = .error e' := by
  cases c with
  | true => exact .inl (Except.error.inj h).symm
  | false => exact .inr h

theorem orElse_bind_ok {x : Option α} {e : ε} {f : α → Except ε β} {b : β}
    (h : (orElse x e >>= f) = .ok b) : ∃ a, x = some a ∧ f a = .ok b := by
  obtain ⟨a, hx, hf⟩ := bind_ok h
  exact ⟨a, orElse_ok hx, hf⟩

theorem refuse_bind_ok_iff {c : Bool} {e : ε} {f : Unit → Except ε β} {b : β} :
    (refuse c e >>= f) = .ok b ↔ c = false ∧ f () = .ok b := by
  cases c <;> simp [refuse]

/-- Functions that are equal on the elements map a list equally. -/
theorem mapM_congr {f g : α → Except ε β} : ∀ {l : List α}, (∀ a ∈ l, f a = g a) → l.mapM f = l.mapM g
  | [], _ => rfl
  | a :: l, h => by
    rw [List.mapM_cons, List.mapM_cons, h a List.mem_cons_self,
      mapM_congr fun b hb => h b (List.mem_cons_of_mem _ hb)]

theorem mapM_ok {f : α → Except ε β} {g : α → β} : ∀ {l : List α}, (∀ a ∈ l, f a = .ok (g a)) →
    l.mapM f = .ok (l.map g)
  | [], _ => rfl
  | a :: l, h => by
    rw [List.mapM_cons, h a List.mem_cons_self, ok_bind,
      mapM_ok fun b hb => h b (List.mem_cons_of_mem _ hb)]
    rfl

/-- Check every element of a list in order. -/
def forAll (f : α → Except ε Unit) : List α → Except ε Unit
  | [] => .ok ()
  | a :: as => f a >>= fun _ => forAll f as

theorem forAll_ok_iff {f : α → Except ε Unit} : ∀ {l : List α},
    forAll f l = .ok () ↔ ∀ a ∈ l, f a = .ok ()
  | [] => by simp [forAll]
  | a :: l => by
    simp only [forAll, List.mem_cons, forall_eq_or_imp, ← forAll_ok_iff (l := l)]
    constructor
    · intro h
      obtain ⟨_, ha, hl⟩ := bind_ok h
      exact ⟨ha, hl⟩
    · rintro ⟨ha, hl⟩
      rw [ha, ok_bind, hl]

/-- The error, if any, put into another type. -/
theorem mapError_ok_iff {ε' : Type} {g : ε → ε'} {x : Except ε α} {a : α} :
    x.mapError g = .ok a ↔ x = .ok a := by
  cases x <;> simp [Except.mapError]

/-- Check every element in order, and refuse one whose key was met before. -/
def distinct {κ : Type} [DecidableEq κ] (f : α → Except ε Unit) (key : α → κ) (dup : ε) :
    List κ → List α → Except ε Unit
  | _, [] => .ok ()
  | seen, a :: as => do
    f a
    refuse (decide (key a ∈ seen)) dup
    distinct f key dup (key a :: seen) as

theorem distinct_ok_iff {κ : Type} [DecidableEq κ] {f : α → Except ε Unit} {key : α → κ} {dup : ε} :
    ∀ {l : List α} {seen : List κ}, distinct f key dup seen l = .ok () ↔
      (∀ a ∈ l, f a = .ok ()) ∧ (l.map key).Nodup ∧ ∀ a ∈ l, key a ∉ seen
  | [], seen => by simp [distinct]
  | a :: l, seen => by
    have ih := @distinct_ok_iff κ _ f key dup l (key a :: seen)
    simp only [distinct, List.map_cons, List.nodup_cons, List.mem_cons, forall_eq_or_imp]
    constructor
    · intro h
      obtain ⟨_, ha, h⟩ := bind_ok h
      obtain ⟨hn, h⟩ := refuse_bind_ok h
      obtain ⟨h1, h2, h3⟩ := ih.mp h
      refine ⟨⟨ha, h1⟩, ⟨fun hm => ?_, h2⟩, of_decide_eq_false hn, fun b hb hm => ?_⟩
      · obtain ⟨b, hb, he⟩ := List.mem_map.mp hm
        exact h3 b hb (he ▸ List.mem_cons_self)
      · exact h3 b hb (List.mem_cons_of_mem _ hm)
    · rintro ⟨⟨ha, h1⟩, ⟨h4, h2⟩, h5, h6⟩
      rw [ha, ok_bind, refuse_bind_ok_iff]
      refine ⟨by simp [h5], ih.mpr ⟨h1, h2, fun b hb hm => ?_⟩⟩
      rcases List.mem_cons.mp hm with he | hm
      · exact h4 (he ▸ List.mem_map_of_mem hb)
      · exact h6 b hb hm

end Check
