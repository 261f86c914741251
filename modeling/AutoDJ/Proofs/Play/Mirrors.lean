import AutoDJ.Proofs.Play.Ends

/-!
This module contains the comparison of operations on two kinds of states, one of which is what is left of
the other once something has been forgotten.
-/

namespace AutoDJ

namespace Play

theorem onFst_bind {s t α β : Type} (x : Play s α) (f : α → Play s β)
    : ((x >>= f).onFst : Play (s × t) β) = x.onFst >>= fun a => (f a).onFst := by
  funext ⟨a, b⟩
  simp only [Bind.bind, EStateM.bind, onFst]
  cases x a <;> rfl

/--
From every state `y` goes the same way as `x` goes from what is left of that state.
-/
def Mirrors (forget : t → s) (R : α → β → Prop) (x : Play s α) (y : Play t β) : Prop :=
  ∀ state,
    match x (forget state), y state with
    | .ok a rest, .ok b state => R a b ∧ rest = forget state
    | .error e rest, .error e' state => e = e' ∧ rest = forget state
    | _, _ => False

namespace Mirrors

variable {s t : Type} {forget : t → s} {α β γ δ : Type} {R : α → β → Prop} {S : γ → δ → Prop}

theorem pure {a : α} {b : β} (h : R a b)
    : Mirrors forget R (Pure.pure a : Play s α) (Pure.pure b : Play t β) := by
  intro state
  exact ⟨h, rfl⟩

theorem throw (e : Error) : Mirrors forget R (MonadExcept.throw e) (MonadExcept.throw e) := by
  intro state
  exact ⟨rfl, rfl⟩

theorem get : Mirrors forget (fun rest state => rest = forget state) (MonadState.get : Play s s)
    (MonadState.get : Play t t) := by
  intro state
  exact ⟨rfl, rfl⟩

theorem modify {f : s → s} {g : t → t} (h : ∀ state, f (forget state) = forget (g state))
    : Mirrors forget Eq (modify f : Play s PUnit) (modify g : Play t PUnit) := by
  intro state
  exact ⟨rfl, h state⟩

theorem bind {x : Play s α} {y : Play t β} {f : α → Play s γ} {g : β → Play t δ}
    (hx : Mirrors forget R x y) (hf : ∀ a b, R a b → Mirrors forget S (f a) (g b))
    : Mirrors forget S (x >>= f) (y >>= g) := by
  intro state
  have hstate := hx state
  simp only [Bind.bind, EStateM.bind]
  cases hxs : x (forget state) with
  | ok a rest =>
    cases hys : y state with
    | ok b state' =>
      rw [hxs, hys] at hstate
      obtain ⟨hab, rfl⟩ := hstate
      exact hf a b hab state'
    | error e state' => simp [hxs, hys] at hstate
  | error e rest =>
    cases hys : y state with
    | ok b state' => simp [hxs, hys] at hstate
    | error e' state' =>
      rw [hxs, hys] at hstate
      exact hstate

theorem aside {x : Play s α} {y : Play t β} {z : Play t γ} (h : Mirrors forget R x y)
    (hz : ∀ state, z.Ends state (fun _ after => forget after = forget state) (fun _ _ => False))
    : Mirrors forget R x (z >>= fun _ => y) := by
  intro state
  have hafter := hz state
  simp only [Bind.bind, EStateM.bind, Ends] at *
  cases hzs : z state with
  | ok c after =>
    have hrest := h after
    rw [hzs] at hafter
    rwa [hafter] at hrest
  | error e after =>
    rw [hzs] at hafter
    exact hafter.elim

theorem ite {c : Prop} [Decidable c] {x x' : Play s α} {y y' : Play t β}
    (h : c → Mirrors forget R x y) (h' : ¬c → Mirrors forget R x' y')
    : Mirrors forget R (if c then x else x') (if c then y else y') := by
  split
  . next hc => exact h hc
  . next hc => exact h' hc

theorem outcome {x : Play s α} {y : Play t α} (h : Mirrors forget Eq x y)
    : Mirrors forget Eq x.outcome y.outcome := by
  intro state
  have hstate := h state
  unfold Play.outcome
  cases hxs : x (forget state) <;> cases hys : y state <;> simp_all

theorem retry {x : Play s α} {y : Play t α} (h : Mirrors forget Eq x y) (retries : Nat)
    : Mirrors forget Eq (x.retry retries) (y.retry retries) := by
  induction retries with
  | zero => exact h
  | succ retries ih =>
    intro state
    have hstate := h state
    unfold Play.retry
    cases hxs : x (forget state) with
    | ok a rest => cases hys : y state <;> simp_all
    | error e rest =>
      cases hys : y state with
      | ok b state' => simp [hxs, hys] at hstate
      | error e' state' =>
        rw [hxs, hys] at hstate
        obtain ⟨-, rfl⟩ := hstate
        exact ih state'

theorem onFst (x : Play s α) : Mirrors (Prod.fst : s × t → s) Eq x x.onFst := by
  rintro ⟨a, b⟩
  unfold Play.onFst
  dsimp only
  cases x a <;> exact ⟨rfl, rfl⟩

theorem onSnd (x : Play t α) : Mirrors (Prod.snd : s × t → t) Eq x x.onSnd := by
  rintro ⟨a, b⟩
  unfold Play.onSnd
  dsimp only
  cases x b <;> exact ⟨rfl, rfl⟩

theorem lift {u : Type} {x : Play s α} {y : Play t α} (h : Mirrors forget Eq x y)
    : Mirrors (Prod.map forget id : t × u → s × u) Eq x.onFst y.onFst := by
  rintro ⟨state, b⟩
  have hstate := h state
  unfold Play.onFst
  dsimp only [Prod.map_apply]
  cases hx : x (forget state) <;> cases hy : y state <;> simp_all

theorem onFst_map {u : Type} (f : t → u) (x : Play s α)
    : Mirrors (Prod.map id f : s × t → s × u) Eq x.onFst x.onFst := by
  rintro ⟨a, b⟩
  unfold Play.onFst
  dsimp only [Prod.map_apply, id_eq]
  cases x a <;> exact ⟨rfl, rfl⟩

theorem eq_ok {x : Play s α} {y : Play t α} (h : Mirrors forget Eq x y) {state state' : t} {a : α}
    (hy : y state = .ok a state') : x (forget state) = .ok a (forget state') := by
  have hstate := h state
  cases hx : x (forget state) <;> simp_all

theorem eq_error {x : Play s α} {y : Play t α} (h : Mirrors forget Eq x y) {state state' : t}
    {e : Error} (hy : y state = .error e state')
    : x (forget state) = .error e (forget state') := by
  have hstate := h state
  cases hx : x (forget state) <;> simp_all

theorem ends_iff {x : Play s α} {y : Play t α} (h : Mirrors forget Eq x y) (state : t)
    {Q : α → s → Prop} {E : Error → s → Prop}
    : x.Ends (forget state) Q E
        ↔ y.Ends state (fun a after => Q a (forget after)) (fun e after => E e (forget after)) := by
  unfold Ends
  cases hy : y state with
  | ok a after => rw [h.eq_ok hy]
  | error e after => rw [h.eq_error hy]

theorem after_eq {x : Play s α} {y : Play t α} (h : Mirrors forget Eq x y) (state : t)
    : x.after (forget state) = forget (y.after state) := by
  cases hy : y state with
  | ok a state' => rw [after_eq_of_ok hy, after_eq_of_ok (h.eq_ok hy)]
  | error e state' => rw [after_eq_of_error hy, after_eq_of_error (h.eq_error hy)]

end Mirrors

end Play

end AutoDJ
