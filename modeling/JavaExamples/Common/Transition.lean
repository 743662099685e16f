import Mathlib.Data.List.Infix

/-!
# Runs of a partial transition function

Protocol-independent rules for a system given by `step : σ → ε → Option σ`, where `none` means
that the event is not enabled. A run is a list of events.

* `run step s es` — the state after `es`, if every event was enabled in turn.
* `Throughout step Q s es` — `Q` holds of `s` and of every state the run visits.
* `Along step P s es` — `P` holds of every step the run takes: of the state before it and its
  event.

`run_invariant` is the induction rule for what every step preserves, `Along.imp_of_invariant` the
one for what the steps of a disciplined run preserve. `throughout_iff_along` turns a
step-by-step equivalence into one about whole runs: where a step keeps `Q` exactly when it meets
`P`, a run from a `Q`-state keeps `Q` throughout exactly when all its steps meet `P`.
-/

namespace Transition

variable {σ ε : Type*} (step : σ → ε → Option σ)

/-- The state reached from `s` by the events `es`, `none` if one of them was not enabled. -/
def run (s : σ) : List ε → Option σ
  | [] => some s
  | e :: es => (step s e).bind fun s' => run s' es

@[simp]
theorem run_nil (s : σ) : run step s [] = some s := rfl

@[simp]
theorem run_cons (s : σ) (e : ε) (es : List ε) :
    run step s (e :: es) = (step s e).bind fun s' => run step s' es := rfl

/-- Running `es` and then `fs` is running `es ++ fs`. -/
theorem run_append (s : σ) (es fs : List ε) :
    run step s (es ++ fs) = (run step s es).bind fun s' => run step s' fs := by
  induction es generalizing s with
  | nil => rfl
  | cons e es ih =>
    rw [List.cons_append, run_cons, run_cons, Option.bind_assoc]
    exact congrArg _ (funext ih)

/-- The two halves of a completed run. -/
theorem run_append_eq_some {s t : σ} {es fs : List ε} :
    run step s (es ++ fs) = some t ↔
      ∃ m, run step s es = some m ∧ run step m fs = some t := by
  rw [run_append, Option.bind_eq_some_iff]

/-- A completed run that starts with `e` takes that step first. -/
theorem run_cons_eq_some {s t : σ} {e : ε} {es : List ε} :
    run step s (e :: es) = some t ↔
      ∃ m, step s e = some m ∧ run step m es = some t := by
  rw [run_cons, Option.bind_eq_some_iff]

/-- The event rule for one more step at the end of a run. -/
theorem run_snoc_eq_some {s t : σ} {e : ε} {es : List ε} :
    run step s (es ++ [e]) = some t ↔
      ∃ m, run step s es = some m ∧ step m e = some t := by
  simp only [run_append_eq_some, run_cons_eq_some, run_nil, Option.some.injEq, exists_eq_right]

/-- What every step preserves, every run preserves. -/
theorem run_invariant {I : σ → Prop}
    (hstep : ∀ s e s', I s → step s e = some s' → I s') {s t : σ} {es : List ε}
    (hs : I s) (hrun : run step s es = some t) : I t := by
  induction es generalizing s with
  | nil =>
    obtain rfl := Option.some.inj hrun
    exact hs
  | cons e es ih =>
    obtain ⟨m, hm, hrest⟩ := (run_cons_eq_some step).mp hrun
    exact ih (hstep s e m hs hm) hrest

/-- `P` holds of every step taken by the run `es` from `s`. -/
def Along (P : σ → ε → Prop) : σ → List ε → Prop
  | _, [] => True
  | s, e :: es => ∀ s', step s e = some s' → P s e ∧ Along P s' es

/-- `Q` holds of `s` and of every state visited by the run `es` from `s`. -/
def Throughout (Q : σ → Prop) : σ → List ε → Prop
  | s, [] => Q s
  | s, e :: es => Q s ∧ ∀ s', step s e = some s' → Throughout Q s' es

variable {step} {P : σ → ε → Prop} {Q J : σ → Prop}

theorem along_cons_of_eq {s s' : σ} {e : ε} {es : List ε} (h : step s e = some s') :
    Along step P s (e :: es) ↔ P s e ∧ Along step P s' es := by
  rw [Along]
  constructor
  · exact fun hall => hall s' h
  · rintro hs t ht
    obtain rfl := Option.some.inj (h.symm.trans ht)
    exact hs

theorem along_cons_of_eq_none {s : σ} {e : ε} {es : List ε} (h : step s e = none) :
    Along step P s (e :: es) := by
  intro s' hs'
  rw [h] at hs'
  cases hs'

/-- The steps of a run can be checked one after the other. -/
instance decidableAlong [∀ s e, Decidable (P s e)] :
    ∀ s es, Decidable (Along step P s es)
  | _, [] => isTrue trivial
  | s, e :: es =>
    match h : step s e with
    | none => isTrue (along_cons_of_eq_none h)
    | some s' =>
      have := decidableAlong s' es
      decidable_of_iff _ (along_cons_of_eq h).symm

/-- `Throughout` is about the states reached by the prefixes of the run. -/
theorem throughout_iff_initial {s : σ} {es : List ε} :
    Throughout step Q s es ↔ ∀ fs t, fs <+: es → run step s fs = some t → Q t := by
  induction es generalizing s with
  | nil =>
    constructor
    · intro hQ fs t hfs hrun
      obtain rfl := List.prefix_nil.mp hfs
      obtain rfl := Option.some.inj hrun
      exact hQ
    · exact fun h => h [] s (List.prefix_refl _) rfl
  | cons e es ih =>
    constructor
    · rintro ⟨hQ, hrest⟩ fs t hfs hrun
      -- the empty prefix stops at `s`, any other one takes the first step of the run
      cases fs with
      | nil =>
        obtain rfl := Option.some.inj hrun
        exact hQ
      | cons f fs =>
        obtain ⟨rfl, hpre⟩ := List.cons_prefix_cons.mp hfs
        obtain ⟨m, hm, hrun⟩ := (run_cons_eq_some step).mp hrun
        exact ih.mp (hrest m hm) fs t hpre hrun
    · intro h
      refine ⟨h [] s List.nil_prefix rfl, fun m hm => ih.mpr fun fs t hfs hrun => ?_⟩
      exact h (e :: fs) t (List.cons_prefix_cons.mpr ⟨rfl, hfs⟩)
        ((run_cons_eq_some step).mpr ⟨m, hm, hrun⟩)

/-- If `J` is invariant and from a `J`-state a step keeps `Q` exactly when it meets `P`, then a run
keeps `Q` throughout exactly when all its steps meet `P`. -/
theorem throughout_iff_along
    (hJ : ∀ s e s', J s → step s e = some s' → J s')
    (hstep : ∀ s e s', J s → Q s → step s e = some s' → (Q s' ↔ P s e))
    {s : σ} {es : List ε} (hs : J s) (hQ : Q s) :
    Throughout step Q s es ↔ Along step P s es := by
  induction es generalizing s with
  | nil => exact ⟨fun _ => trivial, fun _ => hQ⟩
  | cons e es ih =>
    -- both sides lead on to the next state, where `J` and `Q` hold again
    constructor
    · rintro ⟨-, hrest⟩ s' hs'
      have hQ' : Q s' := (throughout_iff_initial.mp (hrest s' hs')) [] s'
        List.nil_prefix rfl
      exact ⟨(hstep s e s' hs hQ hs').mp hQ', (ih (hJ s e s' hs hs') hQ').mp (hrest s' hs')⟩
    · intro h
      refine ⟨hQ, fun s' hs' => ?_⟩
      obtain ⟨hP, hrest⟩ := h s' hs'
      exact (ih (hJ s e s' hs hs') ((hstep s e s' hs hQ hs').mpr hP)).mpr hrest

/-- What follows from `Q` holds as long as `Q` does. -/
theorem Throughout.imp {Q' : σ → Prop} (hQ : ∀ s, Q s → Q' s) {s : σ} {es : List ε}
    (h : Throughout step Q s es) : Throughout step Q' s es :=
  throughout_iff_initial.mpr fun fs t hfs hrun =>
    hQ t (throughout_iff_initial.mp h fs t hfs hrun)

/-- If the steps that meet `P` preserve `J`, then a run of such steps meets along the way whatever
`J` and `P` give for one step. -/
theorem Along.imp_of_invariant {P' : σ → ε → Prop}
    (hJ : ∀ s e s', J s → P s e → step s e = some s' → J s')
    (hP : ∀ s e, J s → P s e → P' s e) {s : σ} {es : List ε} (hs : J s)
    (h : Along step P s es) : Along step P' s es := by
  induction es generalizing s with
  | nil => trivial
  | cons e es ih =>
    intro s' hs'
    obtain ⟨he, hrest⟩ := h s' hs'
    exact ⟨hP s e hs he, ih (hJ s e s' hs he hs') hrest⟩

/-- What the steps that meet `P` preserve, a run of such steps preserves. -/
theorem Along.invariant {I : σ → Prop}
    (hstep : ∀ s e s', I s → P s e → step s e = some s' → I s') {s t : σ} {es : List ε}
    (hs : I s) (h : Along step P s es) (hrun : run step s es = some t) : I t := by
  induction es generalizing s with
  | nil =>
    obtain rfl := Option.some.inj hrun
    exact hs
  | cons e es ih =>
    obtain ⟨m, hm, hrest⟩ := (run_cons_eq_some step).mp hrun
    obtain ⟨he, hmore⟩ := h m hm
    exact ih (hstep s e m hs he hm) hmore hrest

theorem along_of_forall {s : σ} {es : List ε} (h : ∀ e ∈ es, ∀ s, P s e) :
    Along step P s es := by
  induction es generalizing s with
  | nil => trivial
  | cons e es ih =>
    intro s' _
    exact ⟨h e List.mem_cons_self s, ih fun e' he' => h e' (List.mem_cons_of_mem e he')⟩

theorem Along.and {P' : σ → ε → Prop} {s : σ} {es : List ε} (h : Along step P s es)
    (h' : Along step P' s es) : Along step (fun s e => P s e ∧ P' s e) s es := by
  induction es generalizing s with
  | nil => trivial
  | cons e es ih =>
    intro s' hs'
    obtain ⟨he, hrest⟩ := h s' hs'
    obtain ⟨he', hrest'⟩ := h' s' hs'
    exact ⟨⟨he, he'⟩, ih hrest hrest'⟩

/-- The two halves of a run meet `P` along the way. -/
theorem Along.append {s : σ} {es fs : List ε} (h : Along step P s (es ++ fs)) :
    Along step P s es ∧ ∀ m, run step s es = some m → Along step P m fs := by
  induction es generalizing s with
  | nil =>
    refine ⟨trivial, fun m hm => ?_⟩
    obtain rfl := Option.some.inj hm
    exact h
  | cons e es ih =>
    refine ⟨fun s' hs' => ⟨(h s' hs').1, (ih (h s' hs').2).1⟩, fun m hm => ?_⟩
    obtain ⟨s', hs', hrest⟩ := (run_cons_eq_some step).mp hm
    exact (ih (h s' hs').2).2 m hrest

/-- What holds throughout a run holds before each of its steps. -/
theorem Throughout.along {s : σ} {es : List ε} (h : Throughout step Q s es) :
    Along step (fun s _ => Q s) s es := by
  induction es generalizing s with
  | nil => trivial
  | cons e es ih => exact fun s' hs' => ⟨h.1, ih (h.2 s' hs')⟩

/-- The same about the last state, where no step makes `Q` hold that has not held before: a run ends
in a `Q`-state exactly when all its steps meet `P`. -/
theorem final_iff_along
    (hstep : ∀ s e s', Q s → step s e = some s' → (Q s' ↔ P s e))
    (hback : ∀ s e s', step s e = some s' → Q s' → Q s)
    {s t : σ} {es : List ε} (hQ : Q s) (hrun : run step s es = some t) :
    Q t ↔ Along step P s es := by
  have hfirst : ∀ {s : σ} {es : List ε}, run step s es = some t → Q t → Q s := by
    intro s es hrun hQt
    by_contra hs
    exact run_invariant step (I := fun s => ¬ Q s) (fun s e s' hs hs' h => hs (hback s e s' hs' h))
      hs hrun hQt
  induction es generalizing s with
  | nil =>
    obtain rfl := Option.some.inj hrun
    exact ⟨fun _ => trivial, fun _ => hQ⟩
  | cons e es ih =>
    obtain ⟨m, hm, hrest⟩ := (run_cons_eq_some step).mp hrun
    constructor
    · intro hQt s' hs'
      obtain rfl := Option.some.inj (hm.symm.trans hs')
      have hQm : Q m := hfirst hrest hQt
      exact ⟨(hstep s e m hQ hm).mp hQm, (ih hQm hrest).mp hQt⟩
    · intro h
      obtain ⟨he, hmore⟩ := h m hm
      exact (ih ((hstep s e m hQ hm).mpr he) hrest).mpr hmore

end Transition
