import Mathlib.Tactic.Common

/-!
# Programs that throw and keep a state

`Program σ ε` is the monad of imperative methods: they change a state of type `σ`, and what they
have changed stays changed when they throw.

* `perform` — the outcome of a program and the state it leaves.
* `Returns prog s a t` — from `s`, `prog` returns `a` and leaves `t`; the rules `Returns.pure` and
  `Returns.bind` run a program step by step.
* `Throws prog s e t` — from `s`, `prog` throws `e` and leaves `t`.
* `andFinally prog finalizer` — `prog`, followed by `finalizer` however it ends.
* `mapError f prog` — `prog` with its errors wrapped.
* `Ensures P prog Q R` — from a state in `P`, `prog` returns in `Q` or throws in `R`.
* `Leaves view prog s r v` — from `s`, `prog` ends with `r` in a state of which `view` tells `v`.
* `noting calls prog` — `prog` with `calls` added to a list of what has been called.
-/

/-- Programs with results in `α` and errors in `ε`. -/
abbrev Program (σ ε : Type) := ExceptT ε (StateM σ)

namespace Program

variable {σ ε ε' α β : Type}

/-- The outcome of a program and the state it leaves. -/
def perform (prog : Program σ ε α) (s : σ) : Except ε α × σ := prog.run.run s

/-- A program that does not throw. -/
def step (f : σ → α × σ) : Program σ ε α := ExceptT.mk fun s => (.ok (f s).1, (f s).2)

@[simp]
theorem perform_pure (a : α) (s : σ) : perform (pure a : Program σ ε α) s = (.ok a, s) := rfl

@[simp]
theorem perform_step (f : σ → α × σ) (s : σ) :
    perform (step f : Program σ ε α) s = (.ok (f s).1, (f s).2) := rfl

/-- Running `prog` and then what follows it on its result. -/
theorem perform_bind (prog : Program σ ε α) (next : α → Program σ ε β) (s : σ) :
    perform (prog >>= next) s =
      match perform prog s with
      | (.ok a, t) => perform (next a) t
      | (.error e, t) => (.error e, t) := by
  show (match perform prog s with
    | (r, t) => (ExceptT.bindCont next r) t) = _
  rcases perform prog s with ⟨r | a, t⟩ <;> rfl

/-- From `s`, `prog` returns `a` and leaves `t`. -/
def Returns (prog : Program σ ε α) (s : σ) (a : α) (t : σ) : Prop := perform prog s = (.ok a, t)

theorem Returns.pure (a : α) (s : σ) : Returns (Pure.pure a : Program σ ε α) s a s := rfl

theorem Returns.step (f : σ → α × σ) (s : σ) :
    Returns (step f : Program σ ε α) s (f s).1 (f s).2 := rfl

theorem Returns.bind {prog : Program σ ε α} {next : α → Program σ ε β} {s t u : σ} {a : α} {b : β}
    (hprog : Returns prog s a t) (hnext : Returns (next a) t b u) :
    Returns (prog >>= next) s b u := by
  rw [Returns, perform_bind, hprog]
  exact hnext

/-- From `s`, `prog` throws `e` and leaves `t`. -/
def Throws (prog : Program σ ε α) (s : σ) (e : ε) (t : σ) : Prop := perform prog s = (.error e, t)

theorem Throws.bind {prog : Program σ ε α} {s t : σ} {e : ε} (h : Throws prog s e t)
    (next : α → Program σ ε β) : Throws (prog >>= next) s e t := by
  rw [Throws, perform_bind, h]

theorem Throws.throw (e : ε) (s : σ) : Throws (throw e : Program σ ε α) s e s := rfl

theorem Returns.bind_throws {prog : Program σ ε α} {next : α → Program σ ε β} {s t u : σ} {a : α}
    {e : ε} (hprog : Returns prog s a t) (hnext : Throws (next a) t e u) :
    Throws (prog >>= next) s e u := by
  rw [Throws, perform_bind, hprog]
  exact hnext

/-- A program does one of the two. -/
theorem Throws.not_returns {prog : Program σ ε α} {s t u : σ} {e : ε} {a : α}
    (h : Throws prog s e t) : ¬Returns prog s a u := by
  intro hreturns
  rw [Returns, h] at hreturns
  cases hreturns

/-! ## Handling what is thrown -/

theorem perform_tryCatch (prog : Program σ ε α) (handle : ε → Program σ ε α) (s : σ) :
    perform (tryCatch prog handle) s =
      match perform prog s with
      | (.ok a, t) => (.ok a, t)
      | (.error e, t) => perform (handle e) t := by
  show (match perform prog s with
    | (r, t) => ((match r with
      | .ok a => Pure.pure (.ok a)
      | .error e => handle e : StateM σ (Except ε α)) t)) = _
  rcases perform prog s with ⟨r | a, t⟩ <;> rfl

theorem Returns.tryCatch {prog : Program σ ε α} {s t : σ} {a : α} (h : Returns prog s a t)
    (handle : ε → Program σ ε α) : Returns (tryCatch prog handle) s a t := by
  rw [Returns, perform_tryCatch, h]

theorem Throws.tryCatch_returns {prog : Program σ ε α} {handle : ε → Program σ ε α} {s t u : σ}
    {e : ε} {a : α} (h : Throws prog s e t) (hhandle : Returns (handle e) t a u) :
    Returns (tryCatch prog handle) s a u := by
  rw [Returns, perform_tryCatch, h]
  exact hhandle

theorem Throws.tryCatch {prog : Program σ ε α} {handle : ε → Program σ ε α} {s t u : σ}
    {e e' : ε} (h : Throws prog s e t) (hhandle : Throws (handle e) t e' u) :
    Throws (tryCatch prog handle) s e' u := by
  rw [Throws, perform_tryCatch, h]
  exact hhandle

/-- `prog` and then `finalizer`, whether `prog` has returned or not. -/
def andFinally (prog : Program σ ε α) (finalizer : Program σ ε Unit) : Program σ ε α := do
  let a ← tryCatch prog fun e => do
    finalizer
    throw e
  finalizer
  return a

theorem Returns.andFinally {prog : Program σ ε α} {finalizer : Program σ ε Unit} {s t u : σ} {a : α}
    (h : Returns prog s a t) (hfinalizer : Returns finalizer t () u) :
    Returns (andFinally prog finalizer) s a u :=
  (h.tryCatch _).bind (hfinalizer.bind (Returns.pure a u))

theorem Throws.andFinally {prog : Program σ ε α} {finalizer : Program σ ε Unit} {s t u : σ} {e : ε}
    (h : Throws prog s e t) (hfinalizer : Returns finalizer t () u) :
    Throws (andFinally prog finalizer) s e u :=
  (h.tryCatch (hfinalizer.bind_throws (Throws.throw e u))).bind _

/-- The same program with the errors `f` makes of its own. -/
def mapError (f : ε → ε') (prog : Program σ ε α) : Program σ ε' α :=
  ExceptT.mk fun s => ((perform prog s).1.mapError f, (perform prog s).2)

theorem perform_mapError (f : ε → ε') (prog : Program σ ε α) (s : σ) :
    perform (mapError f prog) s = ((perform prog s).1.mapError f, (perform prog s).2) := rfl

theorem Returns.mapError {prog : Program σ ε α} {s t : σ} {a : α} (h : Returns prog s a t)
    (f : ε → ε') : Returns (mapError f prog) s a t := by
  rw [Returns, perform_mapError, h]
  rfl

theorem Throws.mapError {prog : Program σ ε α} {s t : σ} {e : ε} (h : Throws prog s e t)
    (f : ε → ε') : Throws (mapError f prog) s (f e) t := by
  rw [Throws, perform_mapError, h]
  rfl

/-! ## What holds afterwards -/

/-- Started in `P`, `prog` leaves a state in `Q` if it returns and one in `R` if it throws. -/
def Ensures (P : σ → Prop) (prog : Program σ ε α) (Q : α → σ → Prop) (R : σ → Prop) : Prop :=
  ∀ s, P s → (∀ a t, Returns prog s a t → Q a t) ∧ ∀ e t, Throws prog s e t → R t

section Ensures

variable {P R : σ → Prop} {Q : α → σ → Prop} {prog : Program σ ε α}

theorem Ensures.pure {a : α} (h : ∀ s, P s → Q a s) :
    Ensures P (Pure.pure a : Program σ ε α) Q R := by
  intro s hs
  refine ⟨fun b t hreturns => ?_, fun e t hthrows => ?_⟩
  · obtain ⟨hb, rfl⟩ := Prod.mk.inj hreturns
    exact Except.ok.inj hb ▸ h s hs
  · cases hthrows

theorem Ensures.throw {e : ε} (h : ∀ s, P s → R s) :
    Ensures P (throw e : Program σ ε α) Q R := by
  intro s hs
  refine ⟨fun b t hreturns => ?_, fun e t hthrows => ?_⟩
  · cases hreturns
  · obtain ⟨-, rfl⟩ := Prod.mk.inj hthrows
    exact h s hs

theorem Ensures.step {f : σ → α × σ} (h : ∀ s, P s → Q (f s).1 (f s).2) :
    Ensures P (step f : Program σ ε α) Q R := by
  intro s hs
  refine ⟨fun a t hreturns => ?_, fun e t hthrows => ?_⟩
  · obtain ⟨ha, rfl⟩ := Prod.mk.inj hreturns
    exact Except.ok.inj ha ▸ h s hs
  · cases hthrows

theorem Ensures.bind {next : α → Program σ ε β} {Q' : β → σ → Prop} (hprog : Ensures P prog Q R)
    (hnext : ∀ a, Ensures (Q a) (next a) Q' R) : Ensures P (prog >>= next) Q' R := by
  intro s hs
  obtain ⟨hok, herror⟩ := hprog s hs
  -- either `prog` throws, and that is all, or `next` goes on from where it has returned
  rcases hperform : perform prog s with ⟨e | a, t⟩
  · have hthrows : Throws (prog >>= next) s e t := Throws.bind hperform next
    refine ⟨fun b u hreturns => (hthrows.not_returns hreturns).elim, fun e' u hthrows' => ?_⟩
    obtain ⟨-, rfl⟩ := Prod.mk.inj (hthrows.symm.trans hthrows')
    exact herror e t hperform
  · have hbind : perform (prog >>= next) s = perform (next a) t := by rw [perform_bind, hperform]
    obtain ⟨hok', herror'⟩ := hnext a t (hok a t hperform)
    exact ⟨fun b u hreturns => hok' b u (hbind.symm.trans hreturns),
      fun e u hthrows => herror' e u (hbind.symm.trans hthrows)⟩

theorem Ensures.mono {P' R' : σ → Prop} {Q' : α → σ → Prop} (h : Ensures P prog Q R)
    (hP : ∀ s, P' s → P s) (hQ : ∀ a s, Q a s → Q' a s) (hR : ∀ s, R s → R' s) :
    Ensures P' prog Q' R' :=
  fun s hs => ⟨fun a t hreturns => hQ a t ((h s (hP s hs)).1 a t hreturns),
    fun e t hthrows => hR t ((h s (hP s hs)).2 e t hthrows)⟩

theorem Ensures.mapError (h : Ensures P prog Q R) (f : ε → ε') :
    Ensures P (mapError f prog) Q R := by
  intro s hs
  obtain ⟨hok, herror⟩ := h s hs
  rcases hperform : perform prog s with ⟨e | a, t⟩
  · have hthrows : Throws (Program.mapError f prog) s (f e) t := Throws.mapError hperform f
    refine ⟨fun b u hreturns => (hthrows.not_returns hreturns).elim, fun e' u hthrows' => ?_⟩
    obtain ⟨-, rfl⟩ := Prod.mk.inj (hthrows.symm.trans hthrows')
    exact herror e t hperform
  · have hreturns : Returns (Program.mapError f prog) s a t := Returns.mapError hperform f
    refine ⟨fun b u hreturns' => ?_, fun e u hthrows => (hthrows.not_returns hreturns).elim⟩
    obtain ⟨hab, rfl⟩ := Prod.mk.inj (hreturns.symm.trans hreturns')
    exact Except.ok.inj hab ▸ hok a t hperform

/-- What is kept holds of the state left, however the program ends. -/
theorem Ensures.perform {I : σ → Prop} (h : Ensures I prog (fun _ => I) I) {s : σ} (hs : I s) :
    I (perform prog s).2 := by
  rcases hperform : Program.perform prog s with ⟨e | a, t⟩
  · exact (h s hs).2 e t hperform
  · exact (h s hs).1 a t hperform

theorem Ensures.forM {I : σ → Prop} {prog : α → Program σ ε Unit}
    (h : ∀ x, Ensures I (prog x) (fun _ => I) I) (xs : List α) :
    Ensures I (forM xs prog) (fun _ => I) I := by
  induction xs with
  | nil => exact Ensures.pure fun _ hs => hs
  | cons x xs ih =>
    rw [List.forM_cons]
    exact (h x).bind fun _ => ih

theorem Ensures.mapM {I : σ → Prop} {prog : α → Program σ ε β}
    (h : ∀ x, Ensures I (prog x) (fun _ => I) I) (xs : List α) :
    Ensures I (xs.mapM prog) (fun _ => I) I := by
  induction xs with
  | nil => exact Ensures.pure fun _ hs => hs
  | cons x xs ih =>
    rw [List.mapM_cons]
    exact (h x).bind fun _ => ih.bind fun _ => Ensures.pure fun _ hs => hs

end Ensures

/-! ## What is known of the state

A program whose state is not known, but for what a `view` tells of it. -/

section Leaves

variable {ω : Type} {view : σ → ω} {prog : Program σ ε α} {next : α → Program σ ε β} {s : σ}
  {v u : ω} {a : α}

/-- From `s`, `prog` ends with `r` and leaves a state of which `view` tells `v`. -/
def Leaves (view : σ → ω) (prog : Program σ ε α) (s : σ) (r : Except ε α) (v : ω) : Prop :=
  ∃ t, Program.perform prog s = (r, t) ∧ view t = v

theorem Leaves.pure (view : σ → ω) (a : α) (s : σ) :
    Leaves view (Pure.pure a : Program σ ε α) s (.ok a) (view s) := ⟨s, rfl, rfl⟩

theorem Leaves.bind {r : Except ε β} (hprog : Leaves view prog s (.ok a) v)
    (hnext : ∀ t, view t = v → Leaves view (next a) t r u) : Leaves view (prog >>= next) s r u := by
  obtain ⟨t, hperform, hview⟩ := hprog
  obtain ⟨t', hperform', hview'⟩ := hnext t hview
  refine ⟨t', ?_, hview'⟩
  rw [perform_bind, hperform]
  exact hperform'

theorem Leaves.bind_error {e : ε} (hprog : Leaves view prog s (.error e) v)
    (next : α → Program σ ε β) : Leaves view (prog >>= next) s (.error e) v := by
  obtain ⟨t, hperform, hview⟩ := hprog
  exact ⟨t, Throws.bind hperform next, hview⟩

theorem leaves_perform (view : σ → ω) (prog : Program σ ε α) (s : σ) :
    Leaves view prog s (Program.perform prog s).1 (view (Program.perform prog s).2) := ⟨_, rfl, rfl⟩

/-- The finalizer runs, and what it leaves is left, whether `prog` returns or throws. -/
theorem Leaves.andFinally {finalizer : Program σ ε Unit} {r : Except ε α}
    (hprog : Leaves view prog s r v)
    (hfinalizer : ∀ t, view t = v → Leaves view finalizer t (.ok ()) u) :
    Leaves view (andFinally prog finalizer) s r u := by
  obtain ⟨t, hperform, hview⟩ := hprog
  obtain ⟨t', hfinally, hview'⟩ := hfinalizer t hview
  cases r with
  | ok a => exact ⟨t', Returns.andFinally hperform hfinally, hview'⟩
  | error e => exact ⟨t', Throws.andFinally hperform hfinally, hview'⟩

end Leaves

/-! ## What is called -/

section Noting

variable {κ : Type}

/-- `prog`, with `calls` added to a list that is kept beside the state. -/
def noting (calls : List κ) (prog : Program σ ε α) : Program (σ × List κ) ε α :=
  ExceptT.mk fun s => ((perform prog s.1).1, ((perform prog s.1).2, s.2 ++ calls))

theorem perform_noting (calls : List κ) (prog : Program σ ε α) (s : σ × List κ) :
    perform (noting calls prog) s =
      ((perform prog s.1).1, ((perform prog s.1).2, s.2 ++ calls)) := rfl

/-- What is known of the state. -/
theorem Leaves.noting {ω : Type} {view : σ → ω} {prog : Program σ ε α} {s : σ × List κ}
    {r : Except ε α} {v : ω} (h : Leaves view prog s.1 r v) (calls : List κ) :
    Leaves (fun s => view s.1) (noting calls prog) s r v := by
  obtain ⟨t, hperform, rfl⟩ := h
  refine ⟨(t, s.2 ++ calls), ?_, rfl⟩
  rw [perform_noting, hperform]

/-- What is known of the list. -/
theorem Leaves.noted {ω : Type} {view : σ → ω} {prog : Program σ ε α} {s : σ × List κ}
    {r : Except ε α} {v : ω} (h : Leaves view prog s.1 r v) (calls : List κ) :
    Leaves Prod.snd (Program.noting calls prog) s r (s.2 ++ calls) := by
  obtain ⟨t, hperform, rfl⟩ := h
  refine ⟨(t, s.2 ++ calls), ?_, rfl⟩
  rw [perform_noting, hperform]

end Noting

/-! ## Lists -/

/-- What each element's program returns and keeps, the program over the list returns and keeps. -/
theorem Returns.forM {prog : α → Program σ ε Unit} {K : List α → σ → Prop} {xs : List α} {s : σ}
    (h : ∀ x ys s, K (x :: ys) s → ∃ t, Returns (prog x) s () t ∧ K ys t) (hs : K xs s) :
    ∃ t, Returns (forM xs prog) s () t ∧ K [] t := by
  induction xs generalizing s with
  | nil => exact ⟨s, Returns.pure () s, hs⟩
  | cons x xs ih =>
    obtain ⟨t, hfirst, hK⟩ := h x xs s hs
    obtain ⟨u, hrest, hdone⟩ := ih hK
    rw [List.forM_cons]
    exact ⟨u, hfirst.bind hrest, hdone⟩

/-- The results of the elements' programs, each in a state in `K`. -/
theorem Returns.mapM {prog : α → Program σ ε β} {f : α → β} {K : σ → Prop}
    (h : ∀ x s, K s → ∃ t, Returns (prog x) s (f x) t ∧ K t) {s : σ} (hs : K s) (xs : List α) :
    ∃ t, Returns (xs.mapM prog) s (xs.map f) t ∧ K t := by
  induction xs generalizing s with
  | nil => exact ⟨s, Returns.pure [] s, hs⟩
  | cons x xs ih =>
    obtain ⟨t, hfirst, hK⟩ := h x s hs
    obtain ⟨u, hrest, hdone⟩ := ih hK
    rw [List.mapM_cons]
    exact ⟨u, hfirst.bind (hrest.bind (Returns.pure _ _)), hdone⟩

end Program
