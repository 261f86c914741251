import AutoDJ.Jukebox.Basic

/-!
This module contains the rules for the ends of operations. An operation ends with a result or with an
error; what is known of its end follows from what is known of the ends of its steps.
-/

namespace AutoDJ

namespace Play

/--
Started in a given state, an operation ends with a result and a state for which `Q` holds, or with an
error and a state for which `E` holds.
-/
def Ends (x : Play s α) (state : s) (Q : α → s → Prop) (E : Error → s → Prop) : Prop :=
  match x state with
  | .ok value state => Q value state
  | .error e state => E e state

def after (x : Play s α) (state : s) : s :=
  match x state with
  | .ok _ state | .error _ state => state

def Keeps (x : Play s α) (P : s → Prop) : Prop :=
  ∀ state, P state → x.Ends state (fun _ => P) (fun _ => P)

def SucceedsIn (x : Play s α) (P : s → Prop) : Prop :=
  ∀ state, P state → x.Ends state (fun _ => P) (fun _ _ => False)

variable {s t α β : Type} {state : s} {Q : α → s → Prop} {E : Error → s → Prop}

instance [∀ value state, Decidable (Q value state)] [∀ e state, Decidable (E e state)] {x : Play s α}
    : Decidable (x.Ends state Q E) :=
  match h : x state with
  | .ok value after => decidable_of_iff (Q value after) (by simp [Ends, h])
  | .error e after => decidable_of_iff (E e after) (by simp [Ends, h])

theorem Ends.mono {x : Play s α} {Q' : α → s → Prop} {E' : Error → s → Prop} (h : x.Ends state Q E)
    (hQ : ∀ value state, Q value state → Q' value state) (hE : ∀ e state, E e state → E' e state)
    : x.Ends state Q' E' := by
  unfold Ends at *
  split at h
  . exact hQ _ _ h
  . exact hE _ _ h

theorem Ends.imp {x : Play s α} {P P' : s → Prop} (h : x.Ends state (fun _ => P) (fun _ => P))
    (hP : ∀ state, P state → P' state) : x.Ends state (fun _ => P') (fun _ => P') :=
  h.mono (fun _ => hP) (fun _ => hP)

theorem Ends.and {x : Play s α} {Q' : α → s → Prop} {E' : Error → s → Prop} (h : x.Ends state Q E)
    (h' : x.Ends state Q' E')
    : x.Ends state (fun value state => Q value state ∧ Q' value state)
        (fun e state => E e state ∧ E' e state) := by
  unfold Ends at *
  split at h
  . next hx =>
    rw [hx] at h'
    exact ⟨h, h'⟩
  . next hx =>
    rw [hx] at h'
    exact ⟨h, h'⟩

theorem ends_congr {x : Play s α} {Q' : α → s → Prop} (h : ∀ value state, Q value state ↔ Q' value state)
    : x.Ends state Q E ↔ x.Ends state Q' E := by
  unfold Ends
  split
  . apply h
  . rfl

theorem ends_of_forall {x : Play s α} (hQ : ∀ value state, Q value state)
    (hE : ∀ e state, E e state) : x.Ends state Q E := by
  unfold Ends
  split
  . apply hQ
  . apply hE

theorem ends_self (x : Play s α) (state : s)
    : x.Ends state (fun value after => x state = .ok value after)
        (fun e after => x state = .error e after) := by
  unfold Ends
  split
  . next hx => exact hx
  . next hx => exact hx

theorem ends_of_ok {x : Play s α} {value : α} {state' : s} (hx : x state = .ok value state')
    : x.Ends state Q E ↔ Q value state' := by
  unfold Ends
  rw [hx]

theorem Ends.of_ok {x : Play s α} {value : α} {state' : s} (h : x.Ends state Q E)
    (hx : x state = .ok value state') : Q value state' :=
  (ends_of_ok hx).mp h

theorem Ends.of_error {x : Play s α} {e : Error} {state' : s} (h : x.Ends state Q E)
    (hx : x state = .error e state') : E e state' := by
  unfold Ends at h
  rw [hx] at h
  exact h

theorem Ends.exists_ok {x : Play s α} (h : x.Ends state Q (fun _ _ => False))
    : ∃ value state', x state = .ok value state' ∧ Q value state' := by
  cases hx : x state with
  | ok value state' => exact ⟨value, state', rfl, h.of_ok hx⟩
  | error e state' => exact (h.of_error hx).elim

theorem ends_after {x : Play s α} {P : s → Prop}
    : x.Ends state (fun _ => P) (fun _ => P) ↔ P (x.after state) := by
  unfold Ends after
  split <;> rfl

theorem after_eq_of_ok {x : Play s α} {value : α} {state' : s} (h : x state = .ok value state')
    : x.after state = state' := by
  rw [after, h]

theorem after_eq_of_error {x : Play s α} {e : Error} {state' : s} (h : x state = .error e state')
    : x.after state = state' := by
  rw [after, h]

theorem after_of_ends {x : Play s α} (P : s → Prop) (h : x.Ends state (fun _ => P) (fun _ => P))
    : P (x.after state) :=
  ends_after.mp h

theorem Keeps.after {x : Play s α} {P : s → Prop} (h : x.Keeps P) (hstate : P state)
    : P (x.after state) :=
  after_of_ends P (h state hstate)

@[simp]
theorem ends_pure {a : α} : (pure a : Play s α).Ends state Q E ↔ Q a state :=
  Iff.rfl

@[simp]
theorem ends_throw {e : Error} : (throw e : Play s α).Ends state Q E ↔ E e state :=
  Iff.rfl

@[simp]
theorem ends_get {Q : s → s → Prop} : (get : Play s s).Ends state Q E ↔ Q state state :=
  Iff.rfl

theorem get_bind {f : s → Play s α} : (get >>= f) state = f state state :=
  rfl

@[simp]
theorem ends_set {state' : s} {Q : PUnit → s → Prop}
    : (set state' : Play s PUnit).Ends state Q E ↔ Q ⟨⟩ state' :=
  Iff.rfl

@[simp]
theorem ends_modify {f : s → s} {Q : PUnit → s → Prop}
    : (modify f : Play s PUnit).Ends state Q E ↔ Q ⟨⟩ (f state) :=
  Iff.rfl

@[simp]
theorem ends_bind {x : Play s β} {f : β → Play s α}
    : (x >>= f).Ends state Q E
        ↔ x.Ends state (fun value state => (f value).Ends state Q E) E := by
  unfold Ends
  simp only [bind, EStateM.bind]
  cases x state <;> rfl

@[simp]
theorem ends_map {x : Play s β} {f : β → α}
    : (f <$> x).Ends state Q E ↔ x.Ends state (fun value => Q (f value)) E := by
  unfold Ends
  simp only [Functor.map, EStateM.map]
  cases x state <;> rfl

@[simp]
theorem ends_discard {x : Play s β} {Q : PUnit → s → Prop}
    : (discard x).Ends state Q E ↔ x.Ends state (fun _ => Q ⟨⟩) E := by
  unfold Ends
  simp only [discard, Functor.mapConst, EStateM.map, Function.comp]
  cases x state <;> rfl

@[simp]
theorem ends_ite {c : Prop} [Decidable c] {x y : Play s α}
    : (if c then x else y).Ends state Q E
        ↔ (c → x.Ends state Q E) ∧ (¬c → y.Ends state Q E) := by
  split <;> simp_all

@[simp]
theorem ends_outcome {x : Play s α} {Q : Except Error α → s → Prop}
    : x.outcome.Ends state Q E
        ↔ x.Ends state (fun value => Q (.ok value)) (fun e => Q (.error e)) := by
  unfold Ends outcome
  cases x state <;> rfl

@[simp]
theorem ends_retry_zero {x : Play s α} : (x.retry 0).Ends state Q E ↔ x.Ends state Q E :=
  Iff.rfl

@[simp]
theorem ends_retry_succ {x : Play s α} {retries : Nat}
    : (x.retry (retries + 1)).Ends state Q E
        ↔ x.Ends state Q (fun _ state => (x.retry retries).Ends state Q E) := by
  unfold Ends
  rw [retry]
  dsimp only
  cases x state <;> rfl

@[simp]
theorem ends_onFst {x : Play s α} {pair : s × t} {Q : α → s × t → Prop} {E : Error → s × t → Prop}
    : (x.onFst : Play (s × t) α).Ends pair Q E
        ↔ x.Ends pair.1 (fun value state => Q value (state, pair.2))
            (fun e state => E e (state, pair.2)) := by
  obtain ⟨a, b⟩ := pair
  unfold Ends onFst
  dsimp only
  cases x a <;> rfl

@[simp]
theorem ends_onSnd {x : Play t α} {pair : s × t} {Q : α → s × t → Prop} {E : Error → s × t → Prop}
    : (x.onSnd : Play (s × t) α).Ends pair Q E
        ↔ x.Ends pair.2 (fun value state => Q value (pair.1, state))
            (fun e state => E e (pair.1, state)) := by
  obtain ⟨a, b⟩ := pair
  unfold Ends onSnd
  dsimp only
  cases x b <;> rfl

namespace Keeps

variable {P : s → Prop} {x : Play s α}

theorem pure (a : α) : (Pure.pure a : Play s α).Keeps P :=
  fun _ h => h

theorem throw (e : Error) : (MonadExcept.throw e : Play s α).Keeps P :=
  fun _ h => h

theorem get : (MonadState.get : Play s s).Keeps P :=
  fun _ h => h

theorem bind {f : α → Play s β} (hx : x.Keeps P) (hf : ∀ a, (f a).Keeps P) : (x >>= f).Keeps P := by
  intro state h
  rw [ends_bind]
  apply (hx state h).mono
  . intro a state h
    exact hf a state h
  . intro _ _ h
    exact h

theorem ite {c : Prop} [Decidable c] {y : Play s α} (hx : c → x.Keeps P) (hy : ¬c → y.Keeps P)
    : (if c then x else y).Keeps P := by
  split
  . next hc => exact hx hc
  . next hc => exact hy hc

theorem outcome (h : x.Keeps P) : x.outcome.Keeps P := by
  intro state hstate
  rw [ends_outcome]
  exact h state hstate

theorem retry (h : x.Keeps P) (retries : Nat) : (x.retry retries).Keeps P := by
  induction retries with
  | zero => exact h
  | succ retries ih =>
    intro state hstate
    rw [ends_retry_succ]
    apply (h state hstate).mono
    . intro _ _ h
      exact h
    . intro _ state h
      exact ih state h

end Keeps

namespace SucceedsIn

variable {P : s → Prop} {x : Play s α}

theorem pure (a : α) : (Pure.pure a : Play s α).SucceedsIn P :=
  fun _ h => h

theorem bind {f : α → Play s β} (hx : x.SucceedsIn P) (hf : ∀ a, (f a).SucceedsIn P)
    : (x >>= f).SucceedsIn P := by
  intro state h
  rw [ends_bind]
  apply (hx state h).mono
  . exact hf
  . exact fun _ _ => id

theorem ite {c : Prop} [Decidable c] {y : Play s α} (hx : c → x.SucceedsIn P) (hy : ¬c → y.SucceedsIn P)
    : (if c then x else y).SucceedsIn P := by
  split
  . next hc => exact hx hc
  . next hc => exact hy hc

end SucceedsIn

end Play

namespace Deck

variable {s α : Type} {deck : Deck s} {E : Error → Deck s → Prop}

@[simp]
theorem ends_onDevice {x : Play s α} {Q : α → Deck s → Prop}
    : (onDevice x).Ends deck Q E
        ↔ x.Ends deck.device (fun value device => Q value { deck with device })
            (fun e device => E e { deck with device }) := by
  unfold Play.Ends onDevice
  cases x deck.device <;> rfl

@[simp]
theorem ends_modifyJukebox {f : Jukebox → Jukebox} {Q : PUnit → Deck s → Prop}
    : (modifyJukebox f).Ends deck Q E ↔ Q ⟨⟩ { deck with jukebox := f deck.jukebox } :=
  Iff.rfl

@[simp]
theorem ends_emit {kind : EventKind} {message : Option String} {Q : PUnit → Deck s → Prop}
    : (emit kind message).Ends deck Q E
        ↔ Q ⟨⟩ { deck with
            events := deck.events ++ [{ kind, partition := deck.jukebox.partition, message }] } :=
  Iff.rfl

@[simp]
theorem ends_noteOverflow {Q : PUnit → Deck s → Prop}
    : noteOverflow.Ends deck Q E ↔ Q ⟨⟩ { deck with overflowed := true } :=
  Iff.rfl

end Deck

end AutoDJ
