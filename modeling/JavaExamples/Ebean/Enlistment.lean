import JavaExamples.Ebean.InMemory

/-!
# One transaction of Ebean's for each of Narayana's

Runs of calls on any threads, of the callbacks of Narayana's, and of whatever else happens. Each
method runs to its end before the next one begins.

* `Enlisted`, `Later` — what holds in every state, and what stays.
* `Contract.later_run` — every run keeps both.

**Statement.** In an open transaction of Narayana's one transaction of Ebean's is handed out on all
threads, and in no other one (`handsOutOwn`).
-/

namespace Ebean

open Program Function

/-! ## Runs -/

inductive Event (T E O : Type) where
  | getCurrentTransaction (thread : T)
  | beforeCompletion (sync : EbeanSynchronization E)
  | afterCompletion (sync : EbeanSynchronization E) (thread : T) (status : Status)
  | other (o : O)

section Runs

variable {σ ε T N E C O : Type} [DecidableEq E] (lib : Library σ ε T E C) (other : O → σ → σ)

def after (s : σ) : Event T E O → σ
  | .getCurrentTransaction thread => (perform (getCurrentTransaction lib thread) s).2
  | .beforeCompletion sync => (perform (sync.beforeCompletion lib) s).2
  | .afterCompletion sync thread status => (perform (sync.afterCompletion lib thread status) s).2
  | .other o => other o s

def run (s : σ) (events : List (Event T E O)) : σ := events.foldl (after lib other) s

end Runs

/-! ## What stays -/

namespace View

variable {T N E : Type} {v v' v'' : View T N E} {thread : T} {n : N} {transaction : E}

/-- The class has not been called. -/
structure Fresh (v : View T N E) : Prop where
  resource : ∀ n, v.resource n = none
  registered : v.registered = ∅

/-- What has been put for a transaction of Narayana's has been constructed and is not there for
another one, and only what has been constructed is registered. -/
structure Enlisted (v : View T N E) : Prop where
  constructed : ∀ n transaction, v.resource n = some transaction → transaction ∈ v.constructed
  injective : ∀ m n transaction, v.resource m = some transaction →
    v.resource n = some transaction → m = n
  registered : v.registered ⊆ v.constructed

/-- What has been put stays, and what has not been registered when it was constructed never is. -/
structure Later (v v' : View T N E) : Prop where
  resource : ∀ n transaction, v.resource n = some transaction → v'.resource n = some transaction
  constructed : v.constructed ⊆ v'.constructed
  registered : ∀ transaction ∈ v.constructed, transaction ∈ v'.registered →
    transaction ∈ v.registered

theorem Fresh.enlisted (h : v.Fresh) : v.Enlisted where
  constructed n transaction hresource := by
    rw [h.resource n] at hresource
    cases hresource
  injective m n transaction hresource := by
    rw [h.resource m] at hresource
    cases hresource
  registered := by
    rw [h.registered]
    exact Set.empty_subset _

theorem Later.refl (v : View T N E) : v.Later v := ⟨fun _ _ h => h, subset_rfl, fun _ _ h => h⟩

theorem Later.trans (h : v.Later v') (h' : v'.Later v'') : v.Later v'' where
  resource n transaction hresource := h'.resource n transaction (h.resource n transaction hresource)
  constructed := h.constructed.trans h'.constructed
  registered transaction hmem hregistered :=
    h.registered transaction hmem
      (h'.registered transaction (h.constructed hmem) hregistered)

theorem Keeps.trans (h : v.Keeps v') (h' : v'.Keeps v'') : v.Keeps v'' :=
  ⟨h'.resource.trans h.resource, h'.registered.trans h.registered,
    h.constructed.trans h'.constructed⟩

theorem keeps_setScope [DecidableEq T] (v : View T N E) (thread : T) (transaction : Option E) :
    v.Keeps (v.setScope thread transaction) := ⟨rfl, rfl, subset_rfl⟩

theorem Keeps.later (h : v.Keeps v') : v.Later v' where
  resource n transaction hresource := by rwa [h.resource]
  constructed := h.constructed
  registered transaction _ hregistered := by rwa [h.registered] at hregistered

theorem Keeps.enlisted (h : v.Keeps v') (hv : v.Enlisted) : v'.Enlisted where
  constructed n transaction hresource := by
    rw [h.resource] at hresource
    exact h.constructed (hv.constructed n transaction hresource)
  injective m n transaction := by
    rw [h.resource]
    exact hv.injective m n transaction
  registered := by
    rw [h.registered]
    exact hv.registered.trans h.constructed

theorem Enlisted.register (hv : v.Enlisted) (hmem : transaction ∈ v.constructed) :
    (v.register transaction).Enlisted where
  constructed := hv.constructed
  injective := hv.injective
  registered := Set.insert_subset hmem hv.registered

/-- What is registered is new. -/
theorem Later.register (h : v.Later v') (hnew : transaction ∉ v.constructed) :
    v.Later (v'.register transaction) where
  resource := h.resource
  constructed := h.constructed
  registered e he hregistered := by
    rcases Set.mem_insert_iff.mp hregistered with rfl | hregistered
    · exact (hnew he).elim
    · exact h.registered e he hregistered

variable [DecidableEq N]

theorem resource_put_eq_some {m : N} {e : E} :
    (v.put n transaction).resource m = some e ↔
      m = n ∧ transaction = e ∨ m ≠ n ∧ v.resource m = some e := by
  rw [put]
  rcases eq_or_ne m n with rfl | hne
  · simp
  · simp [hne]

/-- A new transaction is put where there is none. -/
theorem Enlisted.put (hv : v.Enlisted) (hmem : transaction ∈ v.constructed)
    (hnew : ∀ m, v.resource m ≠ some transaction) : (v.put n transaction).Enlisted where
  constructed m e hresource := by
    rcases resource_put_eq_some.mp hresource with ⟨-, rfl⟩ | ⟨-, hresource⟩
    · exact hmem
    · exact hv.constructed m e hresource
  injective m m' e hm hm' := by
    -- only at `n` there is the new one
    rcases resource_put_eq_some.mp hm with ⟨rfl, rfl⟩ | ⟨-, hm⟩
    · rcases resource_put_eq_some.mp hm' with ⟨rfl, -⟩ | ⟨-, hm'⟩
      · rfl
      · exact (hnew m' hm').elim
    · rcases resource_put_eq_some.mp hm' with ⟨-, rfl⟩ | ⟨-, hm'⟩
      · exact (hnew m hm).elim
      · exact hv.injective m m' e hm hm'
  registered := hv.registered

theorem later_put (hnone : v.resource n = none) : v.Later (v.put n transaction) where
  resource m e hresource := by
    refine resource_put_eq_some.mpr (.inr ⟨?_, hresource⟩)
    rintro rfl
    rw [hnone] at hresource
    cases hresource
  constructed := subset_rfl
  registered _ _ h := h

theorem Enlisted.enlist (hv : v.Enlisted) (hw : v.Constructs v') (hnone : v.resource n = none)
    (hnew : transaction ∉ v.constructed) (hmem : transaction ∈ v'.constructed) :
    (v'.put n transaction).Enlisted ∧ v.Later (v'.put n transaction) := by
  have hfree : ∀ m, v'.resource m ≠ some transaction := fun m hm =>
    hnew (hv.constructed m transaction (by rw [← hw.resource, hm]))
  have hnone' : v'.resource n = none := by rw [hw.resource, hnone]
  exact ⟨(hw.enlisted hv).put hmem hfree, hw.later.trans (later_put hnone')⟩

variable [DecidableEq T] {ε : Type} {r : Except ε (Option E)}

/-- A call keeps the invariant, and what there is stays. -/
theorem Enlisted.call (hv : v.Enlisted) (hcall : CallEffect v thread r v') :
    v'.Enlisted ∧ v.Later v' := by
  cases hcall with
  | outside => exact ⟨(keeps_setScope v _ _).enlisted hv, (keeps_setScope v _ _).later⟩
  | completing => exact ⟨hv, .refl v⟩
  | resource => exact ⟨(keeps_setScope v _ _).enlisted hv, (keeps_setScope v _ _).later⟩
  | noConnection _ _ hw => exact ⟨hw.enlisted hv, hw.later⟩
  | unregistered _ hresource hw hnew hmem => exact hv.enlist hw hresource hnew hmem
  | enlisted _ hresource hw hnew hmem =>
    obtain ⟨hput, hlater⟩ := hv.enlist hw hresource hnew hmem
    have hregister := hput.register hmem
    exact ⟨(keeps_setScope _ _ _).enlisted hregister,
      (hlater.register hnew).trans (keeps_setScope _ _ _).later⟩

end View

/-- A call in an open transaction hands out what is its resource then; or it throws, and what is
its resource then is new, and has not been registered. -/
theorem CallEffect.of_openOn {T N E ε : Type} [DecidableEq T] [DecidableEq N] {v v' : View T N E}
    {thread : T} {n : N} {r : Except ε (Option E)} (hcall : CallEffect v thread r v')
    (hopen : v.OpenOn thread n) :
    (∃ transaction, r = .ok (some transaction) ∧ v'.resource n = some transaction ∧
      v'.scope thread = some transaction) ∨
    ∃ e, r = .error e ∧ v'.scope = v.scope ∧ v'.registered = v.registered ∧
      ∀ transaction, v'.resource n = some transaction →
        transaction ∈ v'.constructed ∧ transaction ∉ v.constructed := by
  cases hcall with
  | outside hstatus => exact (hopen.status_ne hstatus).elim
  | completing hnot => exact (hnot n hopen).elim
  | resource hopen' hresource =>
    obtain rfl := hopen.eq hopen'
    exact .inl ⟨_, rfl, hresource, update_self _ _ _⟩
  | enlisted hopen' hresource hw hnew hmem =>
    obtain rfl := hopen.eq hopen'
    exact .inl ⟨_, rfl, update_self _ _ _, update_self _ _ _⟩
  | unregistered hopen' hresource hw hnew hmem =>
    obtain rfl := hopen.eq hopen'
    refine .inr ⟨_, rfl, hw.scope, hw.registered, fun e he => ?_⟩
    rcases View.resource_put_eq_some.mp he with ⟨-, rfl⟩ | ⟨hne, -⟩
    · exact ⟨hmem, hnew⟩
    · exact (hne rfl).elim
  | noConnection hopen' hresource hw =>
    obtain rfl := hopen.eq hopen'
    refine .inr ⟨_, rfl, hw.scope, hw.registered, fun e he => ?_⟩
    rw [hw.resource, hresource] at he
    cases he

section Runs

variable {σ ε T N E C O : Type} [DecidableEq T] [DecidableEq N] [DecidableEq E]
  {lib : Library σ ε T E C} {other : O → σ → σ} {view : σ → View T N E} {connection : E → C}
  {s s₀ : σ} {thread : T} {n : N}

/-- `prog` returns, and nothing is put or registered. -/
def ReturnsKeeping {α : Type} (view : σ → View T N E) (prog : Program σ ε α) (s : σ) : Prop :=
  ∃ a t, Returns prog s a t ∧ (view s).Keeps (view t)

omit [DecidableEq T] [DecidableEq N] [DecidableEq E] in
theorem ReturnsKeeping.bind {α β : Type} {prog : Program σ ε α} {next : α → Program σ ε β}
    (hprog : ReturnsKeeping view prog s) (hnext : ∀ a t, ReturnsKeeping view (next a) t) :
    ReturnsKeeping view (prog >>= next) s := by
  obtain ⟨a, t, hprog, hkeeps⟩ := hprog
  obtain ⟨b, u, hnext, hkeeps'⟩ := hnext a t
  exact ⟨b, u, hprog.bind hnext, hkeeps.trans hkeeps'⟩

omit [DecidableEq T] [DecidableEq N] [DecidableEq E] in
theorem ReturnsKeeping.of_leaves {α : Type} {prog : Program σ ε α} {a : α} {v : View T N E}
    (h : Leaves view prog s (.ok a) v) (hkeeps : (view s).Keeps v) :
    ReturnsKeeping view prog s := by
  obtain ⟨t, hperform, rfl⟩ := h
  exact ⟨a, t, hperform, hkeeps⟩

namespace Contract

variable (h : Contract lib other view connection)

include h

/-- The `finally` block. -/
theorem returnsKeeping_finally (sync : EbeanSynchronization E) (thread : T) (s : σ) :
    ReturnsKeeping view (do
      lib.deactivateExternal sync.transaction
      if (← lib.inScope thread) = some sync.transaction then lib.clearExternal thread
      lib.close (← lib.internalConnection sync.transaction)) s := by
  have hdeactivate : ReturnsKeeping view (lib.deactivateExternal sync.transaction) s := by
    obtain ⟨v, hv, hleaves⟩ := h.deactivateExternal sync.transaction s
    exact .of_leaves hleaves hv
  have hclose : ∀ t, ReturnsKeeping view (do
      lib.close (← lib.internalConnection sync.transaction)) t := fun t => by
    refine .bind (.of_leaves (h.internalConnection _ t) (.refl _)) fun c u => ?_
    obtain ⟨v, hv, hleaves⟩ := h.close c u
    exact .of_leaves hleaves hv
  refine hdeactivate.bind fun _ t => .bind (.of_leaves (h.inScope thread t) (.refl _)) ?_
  intro scope u
  split
  · exact .bind (.of_leaves (h.clearExternal thread u) (View.keeps_setScope _ _ _)) fun _ => hclose
  · exact hclose u

/-- Whatever the callback throws, the `finally` block runs. -/
theorem keeps_afterCompletion (sync : EbeanSynchronization E) (thread : T) (status : Status)
    (s : σ) : (view s).Keeps (view (perform (sync.afterCompletion lib thread status) s).2) := by
  have hcallback : (view s).Keeps (view (perform (if status = .committed
      then lib.postCommit sync.transaction else lib.postRollback sync.transaction) s).2) := by
    split
    · exact h.postCommit sync.transaction s
    · exact h.postRollback sync.transaction s
  rcases hperform : perform (if status = .committed then lib.postCommit sync.transaction
    else lib.postRollback sync.transaction) s with ⟨r, t⟩
  rw [hperform] at hcallback
  obtain ⟨_, u, hfinally, hkeeps⟩ := h.returnsKeeping_finally sync thread t
  rw [EbeanSynchronization.afterCompletion]
  cases r with
  | ok a =>
    rw [Returns.andFinally hperform hfinally]
    exact hcallback.trans hkeeps
  | error e =>
    rw [Throws.andFinally hperform hfinally]
    exact hcallback.trans hkeeps

theorem later_after (hs : (view s).Enlisted) (event : Event T E O) :
    (view (after lib other s event)).Enlisted ∧
      (view s).Later (view (after lib other s event)) := by
  cases event with
  | getCurrentTransaction thread =>
    obtain ⟨r, v, ⟨t, hperform, rfl⟩, heffect⟩ := h.callEffect thread s
    rw [after, hperform]
    exact hs.call heffect
  | beforeCompletion sync =>
    have hkeeps := h.preCommit sync.transaction s
    exact ⟨hkeeps.enlisted hs, hkeeps.later⟩
  | afterCompletion sync thread status =>
    have hkeeps := h.keeps_afterCompletion sync thread status s
    exact ⟨hkeeps.enlisted hs, hkeeps.later⟩
  | other o =>
    have hkeeps := h.other o s
    exact ⟨hkeeps.enlisted hs, hkeeps.later⟩

theorem later_run (hs : (view s).Enlisted) (events : List (Event T E O)) :
    (view (run lib other s events)).Enlisted ∧ (view s).Later (view (run lib other s events)) := by
  induction events generalizing s with
  | nil => exact ⟨hs, .refl _⟩
  | cons event events ih =>
    obtain ⟨hafter, hlater⟩ := h.later_after hs event
    obtain ⟨hrun, hlater'⟩ := ih hafter
    exact ⟨hrun, hlater.trans hlater'⟩

/-- It is handed out there, and nowhere else. -/
theorem handsOut (hs : (view s).Enlisted) {transaction : E}
    (hresource : (view s).resource n = some transaction) {m : N}
    (hopen : (view s).OpenOn thread m) :
    (m = n → Leaves view (getCurrentTransaction lib thread) s (.ok (some transaction))
      ((view s).setScope thread (some transaction))) ∧
    (m ≠ n → ∀ t, ¬Returns (getCurrentTransaction lib thread) s (some transaction) t) := by
  constructor
  · rintro rfl
    exact h.leaves_resource hopen hresource
  · intro hne t hreturns
    obtain ⟨r, v, ⟨u, hperform, rfl⟩, heffect⟩ := h.callEffect thread s
    obtain rfl : r = .ok (some transaction) := (Prod.mk.inj (hperform.symm.trans hreturns)).1
    obtain ⟨hs', hlater⟩ := hs.call heffect
    rcases heffect.of_openOn hopen with ⟨_, hok, hm, -⟩ | ⟨_, herror, -⟩
    · obtain rfl := Option.some.inj (Except.ok.inj hok)
      exact hne (hs'.injective m n _ hm (hlater.resource n _ hresource))
    · cases herror

end Contract

/-- In every run, for every call in an open transaction of Narayana's: if it returns, there is a
transaction of Ebean's that it hands out and leaves in the scope of its thread; if it throws, what
it has opened is never registered. What it leaves as the resource is handed out by every later call
in that transaction of Narayana's, on any thread and without opening another, and by no call in
another one. -/
theorem handsOutOwn (h : Contract lib other view connection) (hfresh : (view s₀).Fresh)
    {events : List (Event T E O)} (hrun : run lib other s₀ events = s)
    (hopen : (view s).OpenOn thread n) {r : Except ε (Option E)} {s' : σ}
    (hcall : perform (getCurrentTransaction lib thread) s = (r, s')) :
    ((∃ transaction, r = .ok (some transaction) ∧ (view s').resource n = some transaction ∧
        (view s').scope thread = some transaction) ∨
      ∃ e, r = .error e ∧ (view s').scope = (view s).scope ∧
        ∀ transaction, (view s').resource n = some transaction →
          ∀ later, transaction ∉ (view (run lib other s' later)).registered) ∧
    ∀ transaction, (view s').resource n = some transaction → ∀ later thread' m,
      (view (run lib other s' later)).OpenOn thread' m →
        (m = n → Leaves view (getCurrentTransaction lib thread') (run lib other s' later)
          (.ok (some transaction))
          ((view (run lib other s' later)).setScope thread' (some transaction))) ∧
        (m ≠ n → ∀ t, ¬Returns (getCurrentTransaction lib thread') (run lib other s' later)
          (some transaction) t) := by
  obtain ⟨hs, -⟩ := h.later_run hfresh.enlisted events
  rw [hrun] at hs
  obtain ⟨_, _, ⟨_, hperform, rfl⟩, heffect⟩ := h.callEffect thread s
  obtain ⟨rfl, rfl⟩ := Prod.mk.inj (hcall.symm.trans hperform)
  obtain ⟨hs', -⟩ := hs.call heffect
  refine ⟨?_, fun transaction hresource later thread' m hopen' => ?_⟩
  · rcases heffect.of_openOn hopen with hreturned | ⟨e, he, hscope, hregistered, hnew⟩
    · exact .inl hreturned
    · refine .inr ⟨e, he, hscope, fun transaction hresource later hmem => ?_⟩
      obtain ⟨hconstructed, hnot⟩ := hnew transaction hresource
      -- it would have been registered before it was there
      have hbefore := (h.later_run hs' later).2.registered transaction hconstructed hmem
      rw [hregistered] at hbefore
      exact hnot (hs.registered hbefore)
  · obtain ⟨hu, hlater⟩ := h.later_run hs' later
    exact h.handsOut hu (hlater.resource n transaction hresource) hopen'

end Runs

namespace InMemory

theorem fresh_initial : initial.view.Fresh where
  resource _ := rfl
  registered := by simp [initial, Memory.view]

/-- A transaction is begun on a thread. -/
def begin (thread n : ℕ) : List (Event ℕ ℕ Act) :=
  [.other (.setStatus n .active), .other (.associate thread (some n))]

/-- After a call in transaction 0 on thread 0, that is suspended there, transaction 1 is begun and
worked in, and transaction 0 is resumed on thread 1. -/
def resumed : List (Event ℕ ℕ Act) :=
  .other (.associate 0 none) :: begin 0 1 ++
    [.getCurrentTransaction 0, .other (.associate 1 (some 0))]

/-- On thread 1 the same transaction is handed out, and on thread 0 it is not any more. -/
theorem handsOutOwn_resumed : ∃ s s' : Memory,
    run library Act.apply initial (begin 0 0) = s ∧
    Returns (getCurrentTransaction library 0) s (some 0) s' ∧
    (∃ u,
      Returns (getCurrentTransaction library 1) (run library Act.apply s' resumed) (some 0) u) ∧
    ∀ u,
      ¬Returns (getCurrentTransaction library 0) (run library Act.apply s' resumed) (some 0) u := by
  have hopen : (run library Act.apply initial (begin 0 0)).view.OpenOn 0 0 := ⟨rfl, .inl rfl⟩
  have hcall : perform (getCurrentTransaction library 0)
      (run library Act.apply initial (begin 0 0)) = (.ok (some 0), _) := rfl
  obtain ⟨-, hlater⟩ := handsOutOwn contract fresh_initial rfl hopen hcall
  refine ⟨_, _, rfl, hcall, ?_, ?_⟩
  · obtain ⟨u, hreturns, -⟩ := (hlater 0 rfl resumed 1 0 ⟨rfl, .inl rfl⟩).1 rfl
    exact ⟨u, hreturns⟩
  · exact (hlater 0 rfl resumed 0 1 ⟨rfl, .inl rfl⟩).2 (by decide)

end InMemory

end Ebean
