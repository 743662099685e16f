import Mathlib.Data.List.Chain
import JavaExamples.Common.Program

/-!
# Programs of statements that commit on their own

A `Statements σ ε α` program works on a database of type `σ` through statements that are executed
one at a time, each in a transaction of its own: what a statement has written is seen by everybody
before the next one runs, and stays when a later one fails.

* `execute` — one statement; `Session.failAt` makes the statement with that number fail.
* `Completes prog s a t` — without failures, `prog` returns `a` on `s` and leaves `t`.
* `Fails prog s` — without failures from outside, `prog` throws on `s`.
* `Triple G P prog Q` — started in `P`, every statement of `prog` makes a step in `G`, and `prog`
  leaves a state in `Q` if it returns.
* `exists_split_of_isChain` — the phases that such steps go through.

`Triple` is sound for failures too: it quantifies over every choice of the failing statement.
-/

namespace AutoCommit

/-- The database, the states committed so far and the number of statements until one fails. -/
structure Session (σ : Type) where
  db : σ
  observed : List σ
  failAt : Option ℕ

/-- A session on `db` in which nothing has been executed yet. -/
def Session.open {σ : Type} (db : σ) (failAt : Option ℕ) : Session σ :=
  { db, observed := [], failAt }

/-- Programs of statements, with results in `α` and errors in `ε`. -/
abbrev Statements (σ ε : Type) := Program (Session σ) ε

open Program

variable {σ ε α β : Type}

/-- Executes and commits one statement, or throws: `lost` if the statement fails for reasons outside
of the database, or what the statement itself throws. -/
def execute (lost : ε) (stm : σ → Except ε (α × σ)) : Statements σ ε α :=
  ExceptT.mk fun s =>
    if s.failAt = some 0 then (.error lost, s)
    else
      match stm s.db with
      | .error e => (.error e, s)
      | .ok (a, db) =>
        (.ok a, { db, observed := s.observed ++ [db], failAt := s.failAt.map (· - 1) })

theorem perform_execute (lost : ε) (stm : σ → Except ε (α × σ)) (s : Session σ) :
    perform (execute lost stm) s =
      if s.failAt = some 0 then (.error lost, s)
      else
        match stm s.db with
        | .error e => (.error e, s)
        | .ok (a, db) =>
          (.ok a, { db, observed := s.observed ++ [db], failAt := s.failAt.map (· - 1) }) := rfl

/-! ## Runs without failures -/

/-- Without failures, `prog` returns `a` on `s` and leaves `t`. -/
def Completes (prog : Statements σ ε α) (s : σ) (a : α) (t : σ) : Prop :=
  ∀ observed, ∃ observed', Returns prog { db := s, observed, failAt := none } a
    { db := t, observed := observed', failAt := none }

theorem Completes.pure (a : α) (s : σ) : Completes (Pure.pure a : Statements σ ε α) s a s :=
  fun observed => ⟨observed, Returns.pure a _⟩

theorem Completes.bind {prog : Statements σ ε α} {next : α → Statements σ ε β} {s t u : σ} {a : α}
    {b : β} (hprog : Completes prog s a t) (hnext : Completes (next a) t b u) :
    Completes (prog >>= next) s b u := by
  intro observed
  obtain ⟨observed', hprog⟩ := hprog observed
  obtain ⟨observed'', hnext⟩ := hnext observed'
  exact ⟨observed'', Returns.bind hprog hnext⟩

theorem Completes.execute {lost : ε} {stm : σ → Except ε (α × σ)} {s t : σ} {a : α}
    (h : stm s = .ok (a, t)) : Completes (execute lost stm) s a t := by
  intro observed
  refine ⟨observed ++ [t], ?_⟩
  rw [Returns, perform_execute, if_neg (by simp), h]
  rfl

/-- If each element's program moves a database in `K` on by `f` and keeps `K`, the program over the
list moves it on by the fold of `f`. -/
theorem Completes.forM {prog : α → Statements σ ε Unit} {f : σ → α → σ} {K : σ → Prop} {xs : List α}
    {s : σ} (h : ∀ x ∈ xs, ∀ s, K s → Completes (prog x) s () (f s x) ∧ K (f s x)) (hs : K s) :
    Completes (forM xs prog) s () (xs.foldl f s) := by
  induction xs generalizing s with
  | nil => exact Completes.pure () s
  | cons x xs ih =>
    obtain ⟨hfirst, hK⟩ := h x List.mem_cons_self s hs
    rw [List.forM_cons]
    exact hfirst.bind (ih (fun y hy => h y (List.mem_cons_of_mem x hy)) hK)

/-- Without failures from outside, `prog` throws on `s`. -/
def Fails (prog : Statements σ ε α) (s : σ) : Prop :=
  ∀ observed, ∃ e t, Throws prog { db := s, observed, failAt := none } e t

theorem Fails.not_completes {prog : Statements σ ε α} {s : σ} (h : Fails prog s) {a : α} {t : σ} :
    ¬Completes prog s a t := by
  intro hcompletes
  obtain ⟨e, u, hthrows⟩ := h []
  obtain ⟨observed, hreturns⟩ := hcompletes []
  exact hthrows.not_returns hreturns

theorem Fails.execute {lost e : ε} {stm : σ → Except ε (α × σ)} {s : σ} (h : stm s = .error e) :
    Fails (execute lost stm) s := by
  intro observed
  refine ⟨e, { db := s, observed, failAt := none }, ?_⟩
  rw [Throws, perform_execute, if_neg (by simp), h]

theorem Fails.bind {prog : Statements σ ε α} {s : σ} (h : Fails prog s)
    (next : α → Statements σ ε β) : Fails (prog >>= next) s := by
  intro observed
  obtain ⟨e, t, hthrows⟩ := h observed
  exact ⟨e, t, hthrows.bind next⟩

theorem Completes.bind_fails {prog : Statements σ ε α} {next : α → Statements σ ε β} {s t : σ}
    {a : α}
    (hprog : Completes prog s a t) (hnext : Fails (next a) t) : Fails (prog >>= next) s := by
  intro observed
  obtain ⟨observed', hreturns⟩ := hprog observed
  obtain ⟨e, u, hthrows⟩ := hnext observed'
  exact ⟨e, u, hreturns.bind_throws hthrows⟩

/-- If each element's program moves a database on by `f` where it does not fail, and where it does
not fail leaves the reason for which another one fails, then the program over a list in which one
fails, fails. -/
theorem Fails.forM {prog : α → Statements σ ε Unit} {f : σ → α → σ} {R : α → σ → Prop} {xs : List α}
    {s : σ} (hfails : ∀ x ∈ xs, ∀ s, R x s → Fails (prog x) s)
    (hcompletes : ∀ x ∈ xs, ∀ s, ¬R x s →
      Completes (prog x) s () (f s x) ∧ ∀ y, R y s → R y (f s x))
    (hs : ∃ x ∈ xs, R x s) : Fails (forM xs prog) s := by
  induction xs generalizing s with
  | nil =>
    obtain ⟨x, hx, -⟩ := hs
    cases hx
  | cons x xs ih =>
    rw [List.forM_cons]
    by_cases hx : R x s
    · exact (hfails x List.mem_cons_self s hx).bind _
    · obtain ⟨hfirst, hkept⟩ := hcompletes x List.mem_cons_self s hx
      refine hfirst.bind_fails (ih (fun y hy => hfails y (List.mem_cons_of_mem x hy))
        (fun y hy => hcompletes y (List.mem_cons_of_mem x hy)) ?_)
      obtain ⟨y, hy, hR⟩ := hs
      rcases List.mem_cons.mp hy with rfl | hy
      · exact absurd hR hx
      · exact ⟨y, hy, hkept y hR⟩

/-! ## All committed states -/

/-- From `s` through the states `ts` to `u`, every step in `G`. -/
inductive Commits (G : σ → σ → Prop) : σ → List σ → σ → Prop where
  | nil (s : σ) : Commits G s [] s
  | cons {s t u : σ} {ts : List σ} (hstep : G s t) (hrest : Commits G t ts u) :
      Commits G s (t :: ts) u

/-- From a session in `P`, whatever fails, every statement that `prog` commits changes the database
by a step in `G`, and if `prog` returns, it leaves the database in `Q`. -/
def Triple (G : σ → σ → Prop) (P : σ → Prop) (prog : Statements σ ε α) (Q : α → σ → Prop) : Prop :=
  ∀ s, P s.db → ∃ ts, (perform prog s).2.observed = s.observed ++ ts ∧
    Commits G s.db ts (perform prog s).2.db ∧
      ∀ a, (perform prog s).1 = .ok a → Q a (perform prog s).2.db

section Triple

variable {G : σ → σ → Prop} {P : σ → Prop} {Q : α → σ → Prop} {R : β → σ → Prop}

theorem Commits.append {s t u : σ} {ts us : List σ} (h : Commits G s ts t)
    (h' : Commits G t us u) : Commits G s (ts ++ us) u := by
  induction h with
  | nil s => exact h'
  | cons hstep hrest ih => exact .cons hstep (ih h')

/-- What every step relates and is reflexive and transitive, relates the ends. -/
theorem Commits.rel (hrefl : ∀ s, G s s) (htrans : ∀ s t u, G s t → G t u → G s u) {s u : σ}
    {ts : List σ} (h : Commits G s ts u) : G s u := by
  induction h with
  | nil s => exact hrefl s
  | cons hstep hrest ih => exact htrans _ _ _ hstep ih

/-- The last state is one of those passed through. -/
theorem Commits.mem {s u : σ} {ts : List σ} (h : Commits G s ts u) : u ∈ s :: ts := by
  induction h with
  | nil s => exact List.mem_cons_self
  | cons hstep hrest ih => exact List.mem_cons_of_mem _ ih

/-- Each state follows the one before it by a step. -/
theorem Commits.isChain {s u : σ} {ts : List σ} (h : Commits G s ts u) :
    List.IsChain G (s :: ts) := by
  induction h with
  | nil s => exact List.isChain_singleton s
  | cons hstep hrest ih => exact List.isChain_cons_cons.mpr ⟨hstep, ih⟩

/-- Where `A` can only be left for `B`, and `B` not at all, the states are first in `A` and then in
`B`. -/
theorem exists_split_of_isChain {A B : σ → Prop} (hA : ∀ s t, A s → G s t → A t ∨ B t)
    (hB : ∀ s t, B s → G s t → B t) {ts : List σ} (h : List.IsChain G ts)
    (hs : ∀ s ∈ ts.head?, A s ∨ B s) :
    ∃ before after, ts = before ++ after ∧ (∀ t ∈ before, A t) ∧ (∀ t ∈ after, B t) := by
  induction ts with
  | nil => exact ⟨[], [], rfl, by simp, by simp⟩
  | cons s ts ih =>
    rcases hs s rfl with hfirst | hfirst
    · have hnext : ∀ t ∈ ts.head?, A t ∨ B t := fun t ht => hA s t hfirst (h.rel_head? ht)
      obtain ⟨before, after, rfl, hbefore, hafter⟩ := ih h.tail hnext
      exact ⟨s :: before, after, rfl, List.forall_mem_cons.mpr ⟨hfirst, hbefore⟩, hafter⟩
    · -- from here on all states are in `B`
      have hall : ∀ t ∈ s :: ts, B t :=
        h.induction B (s :: ts) (fun s t hG hs => hB s t hs hG) fun _ => hfirst
      exact ⟨[], s :: ts, rfl, by simp, hall⟩

theorem Triple.pure {a : α} (h : ∀ db, P db → Q a db) :
    Triple G P (Pure.pure a : Statements σ ε α) Q := by
  intro s hP
  refine ⟨[], by simp, .nil s.db, fun b hb => ?_⟩
  rw [perform_pure] at hb
  exact Except.ok.inj hb ▸ h s.db hP

theorem Triple.bind {prog : Statements σ ε α} {next : α → Statements σ ε β}
    (hprog : Triple G P prog Q) (hnext : ∀ a, Triple G (Q a) (next a) R) :
    Triple G P (prog >>= next) R := by
  intro s hP
  obtain ⟨ts, hobserved, hcommits, hok⟩ := hprog s hP
  rw [perform_bind]
  -- where `prog` throws, `next` commits nothing
  rcases hperform : perform prog s with ⟨e | a, t⟩
  · rw [hperform] at hobserved hcommits
    exact ⟨ts, hobserved, hcommits, fun b hb => by cases hb⟩
  · rw [hperform] at hobserved hcommits hok
    obtain ⟨us, hobserved', hcommits', hok'⟩ := hnext a t (hok a rfl)
    refine ⟨ts ++ us, ?_, hcommits.append hcommits', hok'⟩
    rw [hobserved', hobserved, List.append_assoc]

/-- A statement has to make a step in `G` where it succeeds. -/
theorem Triple.execute {lost : ε} {stm : σ → Except ε (α × σ)}
    (h : ∀ db a db', P db → stm db = .ok (a, db') → G db db' ∧ Q a db') :
    Triple G P (execute lost stm) Q := by
  intro s hP
  rw [perform_execute]
  -- a statement that fails commits nothing, for whichever reason
  split_ifs with hfail
  · exact ⟨[], by simp, .nil s.db, fun b hb => by cases hb⟩
  · cases hstm : stm s.db with
    | error e => exact ⟨[], by simp, .nil s.db, fun b hb => by cases hb⟩
    | ok result =>
      obtain ⟨a, db⟩ := result
      obtain ⟨hG, hQ⟩ := h s.db a db hP hstm
      exact ⟨[db], rfl, .cons hG (.nil db), fun b hb => Except.ok.inj hb ▸ hQ⟩

/-- What each element's program keeps, the program over the list keeps. -/
theorem Triple.forM {γ : Type} {prog : γ → Statements σ ε Unit} {xs : List γ}
    (h : ∀ x ∈ xs, Triple G P (prog x) fun _ => P) : Triple G P (forM xs prog) fun _ => P := by
  induction xs with
  | nil => exact Triple.pure fun _ hP => hP
  | cons x xs ih =>
    rw [List.forM_cons]
    exact (h x List.mem_cons_self).bind fun _ =>
      ih fun y hy => h y (List.mem_cons_of_mem x hy)

end Triple

end AutoCommit
