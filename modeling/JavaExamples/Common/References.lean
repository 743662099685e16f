import Mathlib.Data.List.Perm.Basic
import Mathlib.Data.List.Nodup
import Mathlib.Logic.Function.Basic

/-!
# Rows that refer to other rows

A table with a column of keys of another table. Rows are inserted under ids that are free, and
replaced by rows with the same key only; so a list of what has been inserted accounts for all rows
that were not there at first.

* `Refers`: a row is stored and has the key.
* `Referring.Change`: what one step may do to the table and to the list.
* `Accounted.change`: each of them keeps the account.
-/

namespace References

variable {ι κ ρ : Type}

/-- The row with the id is stored, and has the key. -/
def Refers (key : ρ → κ) (rows : ι → Option ρ) (x : ι) (k : κ) : Prop :=
  ∃ row, rows x = some row ∧ key row = k

section Refers

variable {key : ρ → κ} {rows : ι → Option ρ} {x y : ι} {k l : κ} {row : ρ}

theorem Refers.unique (h : Refers key rows x k) (h' : Refers key rows x l) : k = l := by
  obtain ⟨row, hrow, rfl⟩ := h
  obtain ⟨row', hrow', rfl⟩ := h'
  rw [hrow] at hrow'
  rw [Option.some.inj hrow']

theorem refers_of_rows_eq {rows' : ι → Option ρ} (h : rows' x = rows x) :
    Refers key rows' x k ↔ Refers key rows x k := by
  unfold Refers
  rw [h]

variable [DecidableEq ι]

theorem refers_update_self :
    Refers key (Function.update rows x (some row)) x k ↔ key row = k := by
  simp [Refers]

/-- A row under a free id is one more, and all others stay. -/
theorem refers_insert_iff (hnone : rows y = none) :
    Refers key (Function.update rows y (some row)) x k ↔
      Refers key rows x k ∨ x = y ∧ key row = k := by
  by_cases hxy : x = y
  · subst hxy
    have hnot : ¬ Refers key rows x k := by
      rintro ⟨old, hold, -⟩
      rw [hnone] at hold
      cases hold
    rw [refers_update_self, or_iff_right hnot, and_iff_right rfl]
  · rw [refers_of_rows_eq (Function.update_of_ne hxy ..), or_iff_left fun h => hxy h.1]

/-- A row with the same key in the place of another changes nothing. -/
theorem refers_replace_iff (hrow : Refers key rows y (key row)) :
    Refers key (Function.update rows y (some row)) x k ↔ Refers key rows x k := by
  by_cases hxy : x = y
  · subst hxy
    rw [refers_update_self]
    exact ⟨fun h => h ▸ hrow, fun h => hrow.unique h⟩
  · exact refers_of_rows_eq (Function.update_of_ne hxy ..)

end Refers

/-- A table, and what has been inserted: the ids with the keys of their rows. -/
structure Referring (ι κ ρ : Type) where
  rows : ι → Option ρ
  inserted : List (ι × κ)

variable {key : ρ → κ} {s s' : Referring ι κ ρ}

/-- Every row was there at first, or has been inserted. -/
def Accounted (key : ρ → κ) (start : ι → Option ρ) (s : Referring ι κ ρ) : Prop :=
  ∀ x k, Refers key s.rows x k ↔ Refers key start x k ∨ (x, k) ∈ s.inserted

theorem Accounted.start (rows : ι → Option ρ) :
    Accounted key rows { rows, inserted := ([] : List (ι × κ)) } :=
  fun _ _ => (or_iff_left List.not_mem_nil).symm

namespace Referring

/-- A row is inserted, replaced, or the table stays. -/
inductive Change [DecidableEq ι] (key : ρ → κ) (s s' : Referring ι κ ρ) : Prop where
  | insert (x : ι) (row : ρ) (hnone : s.rows x = none)
      (hrows : s'.rows = Function.update s.rows x (some row))
      (hinserted : s'.inserted.Perm ((x, key row) :: s.inserted))
  | replace (x : ι) (row : ρ) (hrow : Refers key s.rows x (key row))
      (hrows : s'.rows = Function.update s.rows x (some row))
      (hinserted : s'.inserted.Perm s.inserted)
  | keep (hrows : s'.rows = s.rows) (hinserted : s'.inserted.Perm s.inserted)

section Change

variable [DecidableEq ι]

/-- A change leaves what others have inserted alone. -/
theorem Change.frame {t t' : Referring ι κ ρ} (h : Change key s s') (hrows : t.rows = s.rows)
    (hrows' : t'.rows = s'.rows) {others : List (ι × κ)}
    (hinserted : t.inserted.Perm (s.inserted ++ others))
    (hinserted' : t'.inserted.Perm (s'.inserted ++ others)) : Change key t t' := by
  cases h with
  | insert x row hnone hchange hperm =>
    refine .insert x row (hrows ▸ hnone) (by rw [hrows', hchange, hrows]) ?_
    exact hinserted'.trans ((hperm.append_right others).trans (hinserted.symm.cons _))
  | replace x row hrow hchange hperm =>
    refine .replace x row (hrows ▸ hrow) (by rw [hrows', hchange, hrows]) ?_
    exact hinserted'.trans ((hperm.append_right others).trans hinserted.symm)
  | keep hchange hperm =>
    refine .keep (by rw [hrows', hchange, hrows]) ?_
    exact hinserted'.trans ((hperm.append_right others).trans hinserted.symm)

/-- No row goes, and none gets another key. -/
theorem Change.refers (h : Change key s s') {x : ι} {k : κ} (hx : Refers key s.rows x k) :
    Refers key s'.rows x k := by
  cases h with
  | insert y row hnone hrows =>
    rw [hrows, refers_insert_iff hnone]
    exact .inl hx
  | replace y row hrow hrows =>
    rw [hrows, refers_replace_iff hrow]
    exact hx
  | keep hrows =>
    rw [hrows]
    exact hx

end Change

end Referring

/-- Every change keeps the account. -/
theorem Accounted.change [DecidableEq ι] {start : ι → Option ρ} (h : Accounted key start s)
    (hchange : Referring.Change key s s') : Accounted key start s' := by
  intro x k
  cases hchange with
  | insert y row hnone hrows hinserted =>
    -- the new row is the new entry of the list
    have hmem : (x, k) ∈ s'.inserted ↔ (x = y ∧ key row = k) ∨ (x, k) ∈ s.inserted := by
      rw [hinserted.mem_iff, List.mem_cons, Prod.mk.injEq, @eq_comm κ k]
    rw [hrows, refers_insert_iff hnone, h x k, hmem, or_assoc, or_comm (a := x = y ∧ _)]
  | replace y row hrow hrows hinserted =>
    rw [hrows, refers_replace_iff hrow, h x k, hinserted.mem_iff]
  | keep hrows hinserted =>
    rw [hrows, h x k, hinserted.mem_iff]

/-! ## Lists of ids and keys -/

section Zip

variable {xs : List ι} {ks : List κ} {x y : ι} {k : κ}

/-- One more id goes with the next key. -/
theorem zip_concat {done rest : List κ} (hlength : done.length = xs.length) :
    (xs ++ [x]).zip (done ++ k :: rest) = xs.zip (done ++ k :: rest) ++ [(x, k)] := by
  have hxs : (xs ++ []).zip (done ++ k :: rest) = xs.zip done ++ [].zip (k :: rest) :=
    List.zip_append hlength.symm
  rw [List.append_nil, List.zip_nil_left, List.append_nil] at hxs
  rw [hxs, List.zip_append hlength.symm, List.zip_cons_cons, List.zip_nil_left]

/-- Where no key comes twice, none goes with two ids. -/
theorem eq_of_mem_zip (hks : ks.Nodup) (hx : (x, k) ∈ xs.zip ks) (hy : (y, k) ∈ xs.zip ks) :
    x = y := by
  obtain ⟨i, hi, hxi⟩ := List.mem_iff_getElem.mp hx
  obtain ⟨j, hj, hyj⟩ := List.mem_iff_getElem.mp hy
  rw [List.getElem_zip, Prod.mk.injEq] at hxi hyj
  -- the key stands in one place only
  obtain rfl : i = j := (hks.getElem_inj_iff).mp (hxi.2.trans hyj.2.symm)
  exact hxi.1.symm.trans hyj.1

/-- As many ids as keys: every key goes with one. -/
theorem exists_mem_zip (hlength : xs.length = ks.length) (hk : k ∈ ks) :
    ∃ x, (x, k) ∈ xs.zip ks := by
  obtain ⟨i, hi, rfl⟩ := List.mem_iff_getElem.mp hk
  refine ⟨xs[i], List.mem_iff_getElem.mpr ⟨i, by simpa [hlength] using hi, ?_⟩⟩
  exact List.getElem_zip

end Zip

end References
