import Mathlib.Algebra.Order.Ring.Int
import Mathlib.Data.List.Nodup
import Mathlib.Order.Defs.LinearOrder
import JavaExamples.Common.FallibleFilter
import JavaExamples.Jvmti.LocalClassInstanceService

/-!
# Filtering instances

`ReferenceFilterFactory.filter` removes from a collection of weak references those that have been
cleared, and those to objects of which some field or method result does not match a rule. Reading a
field or calling a method may throw, and so may a rule.

**Parameters.** `D` is the type of `double`s in the order of `Double.compare`; `jvm` and
`reflection` say what objects answer.

* `matching_iff`: what the filter keeps.
* `filter_cases`: the collection after the filter has returned or thrown.
* `service_filter_cases`: the same for the store of `LocalClassInstanceService`.
* `filtersExactly_iff`: when the references left are those to objects with values that are equal to,
  or greater than, what the rules name.
-/

namespace Jvmti

/-- What the filter throws: what reflection throws, or a rule. -/
inductive FilterException where
  | nullPointer
  | classCast
  | reflection (name : Text)
  deriving DecidableEq

/-- What objects answer to reflection; `none` stands for `null`, or for an object that is not a
`Number`. -/
structure Reflection (O D : Type) where
  getField : O → Text → Except FilterException (Option O)
  invoke : O → Text → List O → Except FilterException (Option O)
  doubleValue : O → Option D

inductive Rule (D : Type) where
  /-- The text of what is expected. -/
  | EqualToRule (expected : Text)
  | GreaterEqualThanRule (expected : D)

structure FieldFilter (D : Type) where
  fieldName : Text
  rules : List (Rule D)

structure MethodFilter (O D : Type) where
  methodName : Text
  arguments : List O
  rules : List (Rule D)

structure InstanceFilter (O D : Type) where
  fieldFilters : List (FieldFilter D)
  methodFilters : List (MethodFilter O D)

section Model

variable {O D : Type} [LinearOrder D] (jvm : Jvm O) (reflection : Reflection O D)

namespace ObjectReference

def asText (reference : ObjectReference O) : Text := jvm.toText reference.object

def asDouble (reference : ObjectReference O) : Except FilterException D :=
  match reflection.doubleValue reference.object with
  | some value => .ok value
  | none => .error .classCast

/-- `null` is not wrapped. -/
def getFieldValue (reference : ObjectReference O) (name : Text) :
    Except FilterException (Option (ObjectReference O)) := do
  let value ← reflection.getField reference.object name
  return value.map ObjectReference.mk

def invoke (reference : ObjectReference O) (name : Text) (args : List O) :
    Except FilterException (Option (ObjectReference O)) := do
  let value ← reflection.invoke reference.object name args
  return value.map ObjectReference.mk

end ObjectReference

/-- `matches` of the two rules, on `none` for `null`. -/
def Rule.matches : Rule D → Option (ObjectReference O) → Except FilterException Bool
  | _, none => .error .nullPointer
  | .EqualToRule expected, some value => .ok (expected = value.asText jvm)
  | .GreaterEqualThanRule expected, some value => do
    let double ← value.asDouble reflection
    -- `Double.compare(expected, value) >= 0`
    return (compare expected double).isGE

namespace RuleMatcher

def applyRules (reference : Option (ObjectReference O)) (rules : List (Rule D)) :
    Except FilterException Bool :=
  rules.allM fun rule => rule.matches jvm reflection reference

def applyForFields (reference : ObjectReference O) (fieldFilters : List (FieldFilter D)) :
    Except FilterException Bool :=
  fieldFilters.allM fun fieldFilter => do
    let fieldReference ← reference.getFieldValue reflection fieldFilter.fieldName
    applyRules jvm reflection fieldReference fieldFilter.rules

def applyForMethods (reference : ObjectReference O) (methodFilters : List (MethodFilter O D)) :
    Except FilterException Bool :=
  methodFilters.allM fun filter => do
    let methodReturnReference ← reference.invoke reflection filter.methodName filter.arguments
    applyRules jvm reflection methodReturnReference filter.rules

def apply (reference : ObjectReference O) (instanceFilter : InstanceFilter O D) :
    Except FilterException Bool := do
  if !(← applyForFields jvm reflection reference instanceFilter.fieldFilters) then return false
  applyForMethods jvm reflection reference instanceFilter.methodFilters

/-- `apply(it, reference, instanceFilter)`, which removes the element if the result is `false`. -/
def applyTo (instanceFilter : InstanceFilter O D) (reference : WeakReference O) :
    Except FilterException Bool :=
  match reference with
  | none => .ok false
  | some reference => apply jvm reflection reference instanceFilter

end RuleMatcher

/-- The number of references removed or what is thrown, and the collection after it. -/
def ReferenceFilterFactory.filter (references : List (WeakReference O))
    (filter : InstanceFilter O D) : Except FilterException ℕ × List (WeakReference O) :=
  FallibleFilter.filter (RuleMatcher.applyTo jvm reflection filter) references

/-- `filter` of the service, on the store's entries in the order of its iterator. -/
def LocalClassInstanceService.filter (service : LocalClassInstanceService O)
    (entries : List (InstanceId × WeakReference O)) (filter : InstanceFilter O D) :
    Except FilterException ℕ × LocalClassInstanceService O :=
  let filtered := FallibleFilter.filter
    (fun entry => RuleMatcher.applyTo jvm reflection filter entry.2) entries
  (filtered.1, {
    instanceStore := fun id =>
      if id ∈ filtered.2.map Prod.fst then service.instanceStore id else none })

/-! ## How a filter ends -/

/-- The reference is to an object that the filter keeps. -/
def Matching (filter : InstanceFilter O D) (reference : WeakReference O) : Bool :=
  FallibleFilter.accepts (RuleMatcher.applyTo jvm reflection filter) reference

/-- The field is read or the method called, and every rule's `matches` returns `true`. -/
def AllMatch (value : Except FilterException (Option (ObjectReference O))) (rules : List (Rule D)) :
    Prop :=
  ∃ reference, value = .ok reference ∧
    ∀ rule ∈ rules, rule.matches jvm reflection reference = .ok true

/-- The reference is to a live object, of which all fields and method results match. -/
def LiveAndMatching (filter : InstanceFilter O D) (reference : WeakReference O) : Prop :=
  ∃ live, reference = some live ∧
    (∀ fieldFilter ∈ filter.fieldFilters,
      AllMatch jvm reflection (live.getFieldValue reflection fieldFilter.fieldName)
        fieldFilter.rules) ∧
    ∀ methodFilter ∈ filter.methodFilters,
      AllMatch jvm reflection
        (live.invoke reflection methodFilter.methodName methodFilter.arguments) methodFilter.rules

theorem allMatch_iff {value : Except FilterException (Option (ObjectReference O))}
    {rules : List (Rule D)} :
    (do
      let reference ← value
      RuleMatcher.applyRules jvm reflection reference rules) = .ok true ↔
      AllMatch jvm reflection value rules := by
  rw [FallibleFilter.bind_eq_ok_iff]
  exact exists_congr fun _ => and_congr_right' FallibleFilter.allM_eq_ok_true_iff

theorem applyForFields_iff {live : ObjectReference O} {fieldFilters : List (FieldFilter D)} :
    RuleMatcher.applyForFields jvm reflection live fieldFilters = .ok true ↔
      ∀ fieldFilter ∈ fieldFilters,
        AllMatch jvm reflection (live.getFieldValue reflection fieldFilter.fieldName)
          fieldFilter.rules :=
  FallibleFilter.allM_eq_ok_true_iff.trans (forall₂_congr fun _ _ => allMatch_iff jvm reflection)

theorem applyForMethods_iff {live : ObjectReference O} {methodFilters : List (MethodFilter O D)} :
    RuleMatcher.applyForMethods jvm reflection live methodFilters = .ok true ↔
      ∀ methodFilter ∈ methodFilters,
        AllMatch jvm reflection
          (live.invoke reflection methodFilter.methodName methodFilter.arguments)
          methodFilter.rules :=
  FallibleFilter.allM_eq_ok_true_iff.trans (forall₂_congr fun _ _ => allMatch_iff jvm reflection)

/-- What the filter keeps is live, and every rule's `matches` returned `true`. -/
theorem matching_iff {filter : InstanceFilter O D} {reference : WeakReference O} :
    Matching jvm reflection filter reference = true ↔
      LiveAndMatching jvm reflection filter reference := by
  rw [Matching, FallibleFilter.accepts_eq_true_iff]
  cases reference with
  | none => exact iff_of_false (fun h => by cases h) fun ⟨_, h, _⟩ => by cases h
  | some live =>
    have happly : RuleMatcher.apply jvm reflection live filter = .ok true ↔
        RuleMatcher.applyForFields jvm reflection live filter.fieldFilters = .ok true ∧
          RuleMatcher.applyForMethods jvm reflection live filter.methodFilters = .ok true := by
      rw [RuleMatcher.apply, FallibleFilter.bind_eq_ok_iff]
      -- fields that do not match are the end of it
      constructor
      · rintro ⟨fields, hfields, hrest⟩
        cases fields with
        | true => exact ⟨hfields, hrest⟩
        | false => cases hrest
      · rintro ⟨hfields, hmethods⟩
        exact ⟨true, hfields, hmethods⟩
    refine happly.trans ?_
    rw [applyForFields_iff, applyForMethods_iff]
    constructor
    · intro h
      exact ⟨live, rfl, h⟩
    · rintro ⟨_, hlive, h⟩
      cases hlive
      exact h

/-- The filter comes to a decision on the reference. -/
def Decided (filter : InstanceFilter O D) (reference : WeakReference O) : Prop :=
  FallibleFilter.Decides (RuleMatcher.applyTo jvm reflection filter) reference

/-- The filter keeps the matching references, or throws at one of them and keeps the matching ones
before it and all others. -/
theorem filter_cases (filter : InstanceFilter O D) (references : List (WeakReference O)) :
    ((∀ reference ∈ references, Decided jvm reflection filter reference) ∧
      ReferenceFilterFactory.filter jvm reflection references filter =
        (.ok (references.countP fun reference => !Matching jvm reflection filter reference),
          references.filter (Matching jvm reflection filter))) ∨
    ∃ before reference after e, references = before ++ reference :: after ∧
      (∀ reference ∈ before, Decided jvm reflection filter reference) ∧
      RuleMatcher.applyTo jvm reflection filter reference = .error e ∧
      ReferenceFilterFactory.filter jvm reflection references filter =
        (.error e, before.filter (Matching jvm reflection filter) ++ reference :: after) :=
  FallibleFilter.filter_cases _ references

/-- The service runs the factory's filter on the values of its entries. -/
theorem service_filter_values (service : LocalClassInstanceService O)
    (entries : List (InstanceId × WeakReference O)) (filter : InstanceFilter O D) :
    ReferenceFilterFactory.filter jvm reflection (entries.map Prod.snd) filter =
      ((service.filter jvm reflection entries filter).1,
        (FallibleFilter.filter (fun entry => RuleMatcher.applyTo jvm reflection filter entry.2)
          entries).2.map Prod.snd) :=
  FallibleFilter.filter_map Prod.snd entries

/-- The entries are those of the store, in some order. -/
structure EntriesOf (service : LocalClassInstanceService O)
    (entries : List (InstanceId × WeakReference O)) : Prop where
  nodup : (entries.map Prod.fst).Nodup
  mem_iff : ∀ id reference, (id, reference) ∈ entries ↔ service.instanceStore id = some reference

/-- The id of an object is left in the store if its entry is. -/
theorem EntriesOf.mem_ids_iff {service : LocalClassInstanceService O}
    {entries kept : List (InstanceId × WeakReference O)} (h : EntriesOf service entries)
    (hkept : ∀ entry ∈ kept, entry ∈ entries) {id : InstanceId} {reference : WeakReference O}
    (hstore : service.instanceStore id = some reference) :
    id ∈ kept.map Prod.fst ↔ (id, reference) ∈ kept := by
  constructor
  · intro hid
    obtain ⟨⟨_, other⟩, hother, rfl⟩ := List.mem_map.mp hid
    have hsame := (h.mem_iff _ other).mp (hkept _ hother)
    obtain rfl : reference = other := Option.some_inj.mp (hstore.symm.trans hsame)
    exact hother
  · exact fun hentry => List.mem_map.mpr ⟨_, hentry, rfl⟩

theorem kept_subset {α : Type} {before after : List α} {entry : α} (p : α → Bool) :
    ∀ kept ∈ before.filter p ++ entry :: after, kept ∈ before ++ entry :: after := by
  intro kept
  rw [List.mem_append, List.mem_append]
  exact Or.imp_left List.mem_of_mem_filter

/-- What a filter that stops removes of the entries is not behind the one it stops at. -/
theorem EntriesOf.mem_kept_iff {service : LocalClassInstanceService O}
    {before after : List (InstanceId × WeakReference O)} {entry : InstanceId × WeakReference O}
    (h : EntriesOf service (before ++ entry :: after)) {p : InstanceId × WeakReference O → Bool}
    {id : InstanceId} {reference : WeakReference O}
    (hstore : service.instanceStore id = some reference) :
    (id, reference) ∈ before.filter p ++ entry :: after ↔
      ¬∃ removed ∈ before, removed.1 = id ∧ p removed = false := by
  have hmem := (h.mem_iff id reference).mpr hstore
  constructor
  · rintro hleft ⟨⟨_, other⟩, hbefore, rfl, hp⟩
    have hsame := (h.mem_iff _ other).mp (List.mem_append_left _ hbefore)
    obtain rfl : reference = other := Option.some_inj.mp (hstore.symm.trans hsame)
    rcases List.mem_append.mp hleft with hfiltered | hrest
    · exact Bool.false_ne_true (hp.symm.trans (List.mem_filter.mp hfiltered).2)
    · exact (List.nodup_append.mp h.nodup.of_map).2.2 _ hbefore _ hrest rfl
  · intro hnone
    rcases List.mem_append.mp hmem with hbefore | hrest
    · have hp : p (id, reference) = true := by
        by_contra hnot
        exact hnone ⟨_, hbefore, rfl, Bool.eq_false_iff.mpr hnot⟩
      exact List.mem_append_left _ (List.mem_filter.mpr ⟨hbefore, hp⟩)
    · exact List.mem_append_right _ hrest

theorem service_filter_cases {service : LocalClassInstanceService O}
    {entries : List (InstanceId × WeakReference O)} (h : EntriesOf service entries)
    (filter : InstanceFilter O D) :
    ((∀ entry ∈ entries, Decided jvm reflection filter entry.2) ∧
      service.filter jvm reflection entries filter =
        (.ok (entries.countP fun entry => !Matching jvm reflection filter entry.2), {
          instanceStore := fun id =>
            (service.instanceStore id).filter (Matching jvm reflection filter) })) ∨
    ∃ before entry after e, entries = before ++ entry :: after ∧
      (∀ entry ∈ before, Decided jvm reflection filter entry.2) ∧
      RuleMatcher.applyTo jvm reflection filter entry.2 = .error e ∧
      service.filter jvm reflection entries filter = (.error e, {
        instanceStore := fun id =>
          if ∃ entry ∈ before, entry.1 = id ∧ Matching jvm reflection filter entry.2 = false
          then none else service.instanceStore id }) := by
  rcases FallibleFilter.filter_cases
    (fun entry : InstanceId × WeakReference O => RuleMatcher.applyTo jvm reflection filter entry.2)
    entries with ⟨hdecided, hfilter⟩ | ⟨before, entry, after, e, rfl, hdecided, he, hfilter⟩
  · left
    refine ⟨hdecided, ?_⟩
    rw [LocalClassInstanceService.filter, hfilter]
    congr 2
    -- an id has one entry, and is left if it matches
    funext id
    cases hstore : service.instanceStore id with
    | none => simp
    | some reference =>
      have hmem := (h.mem_iff id reference).mpr hstore
      rw [Option.filter_some]
      refine if_congr ((h.mem_ids_iff (fun _ => List.mem_of_mem_filter) hstore).trans ?_) rfl rfl
      simp only [List.mem_filter, hmem, true_and]
      rfl
  · right
    refine ⟨before, entry, after, e, rfl, hdecided, he, ?_⟩
    rw [LocalClassInstanceService.filter, hfilter]
    congr 2
    funext id
    cases hstore : service.instanceStore id with
    | none => simp
    -- what is behind the failure is left as well, whether it matches or not
    | some reference =>
      have hids := h.mem_ids_iff (kept_subset (fun entry => Matching jvm reflection filter entry.2))
        hstore
      refine (if_congr (hids.trans (h.mem_kept_iff hstore)) rfl rfl).trans ?_
      rw [ite_not]

/-- A filter that returns has removed what does not match. One that throws has removed what does
not match before the reference it throws at, and nothing from there on. What matches is live and
passes every rule. -/
theorem filter_returns_or_stops {service : LocalClassInstanceService O}
    {entries : List (InstanceId × WeakReference O)} (h : EntriesOf service entries)
    (filter : InstanceFilter O D) (references : List (WeakReference O)) :
    (((∀ reference ∈ references, Decided jvm reflection filter reference) ∧
        ReferenceFilterFactory.filter jvm reflection references filter =
          (.ok (references.countP fun reference => !Matching jvm reflection filter reference),
            references.filter (Matching jvm reflection filter))) ∨
      ∃ before reference after e, references = before ++ reference :: after ∧
        (∀ reference ∈ before, Decided jvm reflection filter reference) ∧
        RuleMatcher.applyTo jvm reflection filter reference = .error e ∧
        ReferenceFilterFactory.filter jvm reflection references filter =
          (.error e, before.filter (Matching jvm reflection filter) ++ reference :: after)) ∧
    (((∀ entry ∈ entries, Decided jvm reflection filter entry.2) ∧
        service.filter jvm reflection entries filter =
          (.ok (entries.countP fun entry => !Matching jvm reflection filter entry.2), {
            instanceStore := fun id =>
              (service.instanceStore id).filter (Matching jvm reflection filter) })) ∨
      ∃ before entry after e, entries = before ++ entry :: after ∧
        (∀ entry ∈ before, Decided jvm reflection filter entry.2) ∧
        RuleMatcher.applyTo jvm reflection filter entry.2 = .error e ∧
        service.filter jvm reflection entries filter = (.error e, {
          instanceStore := fun id =>
            if ∃ entry ∈ before, entry.1 = id ∧ Matching jvm reflection filter entry.2 = false
            then none else service.instanceStore id })) ∧
    ∀ reference, Matching jvm reflection filter reference = true ↔
      LiveAndMatching jvm reflection filter reference :=
  ⟨filter_cases jvm reflection filter references, service_filter_cases jvm reflection h filter,
    fun _ => matching_iff jvm reflection⟩

/-! ## What the rules are about -/

/-- A rule with the value of a field or the result of a method, each of them not `null`. -/
abbrev Check (O D : Type) := O × Rule D

def checksOf (value : Except FilterException (Option O)) (rules : List (Rule D)) :
    List (Check O D) :=
  match value with
  | .ok (some value) => rules.map fun rule => (value, rule)
  | _ => []

/-- All checks that a filter makes of an object. -/
def checks (filter : InstanceFilter O D) (object : O) : List (Check O D) :=
  (filter.fieldFilters.flatMap fun fieldFilter =>
    checksOf (reflection.getField object fieldFilter.fieldName) fieldFilter.rules) ++
  filter.methodFilters.flatMap fun methodFilter =>
    checksOf (reflection.invoke object methodFilter.methodName methodFilter.arguments)
      methodFilter.rules

/-- There is a value, and it is a number if a rule compares it with one. -/
def OfKind (value : Except FilterException (Option O)) (rules : List (Rule D)) : Prop :=
  ∃ v, value = .ok (some v) ∧ ∀ threshold, .GreaterEqualThanRule threshold ∈ rules →
    ∃ double, reflection.doubleValue v = some double

/-- The fields and the method results that the filter names are of the kind of its rules. -/
structure Readable (filter : InstanceFilter O D) (object : O) : Prop where
  fields : ∀ fieldFilter ∈ filter.fieldFilters,
    OfKind reflection (reflection.getField object fieldFilter.fieldName) fieldFilter.rules
  methods : ∀ methodFilter ∈ filter.methodFilters,
    OfKind reflection
      (reflection.invoke object methodFilter.methodName methodFilter.arguments) methodFilter.rules

/-- What a rule means: the text of the value is the one expected, or the number is greater than or
equal to the threshold. -/
def Rule.means : Rule D → O → Bool
  | .EqualToRule expected, value => jvm.toText value = expected
  | .GreaterEqualThanRule threshold, value =>
    (reflection.doubleValue value).any fun double => threshold ≤ double

/-- What a rule accepts. -/
def Rule.accepts : Rule D → O → Bool
  | .EqualToRule expected, value => jvm.toText value = expected
  | .GreaterEqualThanRule threshold, value =>
    (reflection.doubleValue value).any fun double => double ≤ threshold

variable {jvm reflection} {filter : InstanceFilter O D} {object : O}

theorem matches_eq {rule : Rule D} {value : O}
    (hkind : ∀ threshold, rule = .GreaterEqualThanRule threshold →
      ∃ double, reflection.doubleValue value = some double) :
    rule.matches jvm reflection (some ⟨value⟩) = .ok (rule.accepts jvm reflection value) := by
  cases rule with
  | EqualToRule expected =>
    simp only [Rule.matches, Rule.accepts, ObjectReference.asText]
    congr 1
    exact decide_eq_decide.mpr eq_comm
  | GreaterEqualThanRule threshold =>
    obtain ⟨double, hdouble⟩ := hkind threshold rfl
    simp only [Rule.matches, Rule.accepts, ObjectReference.asDouble, hdouble, Option.any_some]
    show Except.ok (compare threshold double).isGE = _
    have hcompare : (compare threshold double).isGE = decide (double ≤ threshold) := by
      rw [Bool.eq_iff_iff, decide_eq_true_iff, Ordering.isGE_iff_ne_lt]
      exact compare_ge_iff_ge
    rw [hcompare]

theorem applyRules_eq {value : Except FilterException (Option O)} {rules : List (Rule D)}
    (h : OfKind reflection value rules) :
    (do
      let reference ← (do
        let object ← value
        return object.map ObjectReference.mk)
      RuleMatcher.applyRules jvm reflection reference rules) =
      .ok ((checksOf value rules).all fun check => check.2.accepts jvm reflection check.1) := by
  obtain ⟨v, rfl, hkind⟩ := h
  have hmatches : ∀ rule ∈ rules, rule.matches jvm reflection (some ⟨v⟩) =
      .ok (rule.accepts jvm reflection v) := fun rule hrule =>
    matches_eq fun threshold hthreshold => hkind threshold (hthreshold ▸ hrule)
  rw [checksOf, List.all_map]
  exact FallibleFilter.allM_eq hmatches

/-- On an object with values of their kind the matcher returns, namely whether all checks accept. -/
theorem apply_eq (h : Readable reflection filter object) :
    RuleMatcher.apply jvm reflection ⟨object⟩ filter =
      .ok ((checks reflection filter object).all fun check =>
        check.2.accepts jvm reflection check.1) := by
  have hfields : RuleMatcher.applyForFields jvm reflection ⟨object⟩ filter.fieldFilters = _ :=
    FallibleFilter.allM_eq fun fieldFilter hmem => applyRules_eq (h.fields fieldFilter hmem)
  have hmethods : RuleMatcher.applyForMethods jvm reflection ⟨object⟩ filter.methodFilters = _ :=
    FallibleFilter.allM_eq fun methodFilter hmem => applyRules_eq (h.methods methodFilter hmem)
  rw [RuleMatcher.apply, hfields, hmethods, checks, List.all_append, List.all_flatMap,
    List.all_flatMap]
  cases filter.fieldFilters.all _ with
  | true => rfl
  | false => rfl

omit [LinearOrder D] in
theorem kind_of_mem_checksOf {value : Except FilterException (Option O)} {rules : List (Rule D)}
    (h : OfKind reflection value rules) {check : Check O D} (hcheck : check ∈ checksOf value rules)
    {threshold : D} (hrule : check.2 = .GreaterEqualThanRule threshold) :
    ∃ double, reflection.doubleValue check.1 = some double := by
  obtain ⟨v, rfl, hkind⟩ := h
  obtain ⟨rule, hmem, rfl⟩ := List.mem_map.mp hcheck
  exact hkind threshold (hrule ▸ hmem)

omit [LinearOrder D] in
theorem Readable.kind (h : Readable reflection filter object) {check : Check O D}
    (hcheck : check ∈ checks reflection filter object) {threshold : D}
    (hrule : check.2 = .GreaterEqualThanRule threshold) :
    ∃ double, reflection.doubleValue check.1 = some double := by
  rcases List.mem_append.mp hcheck with hcheck | hcheck
  · obtain ⟨fieldFilter, hmem, hcheck⟩ := List.mem_flatMap.mp hcheck
    exact kind_of_mem_checksOf (h.fields fieldFilter hmem) hcheck hrule
  · obtain ⟨methodFilter, hmem, hcheck⟩ := List.mem_flatMap.mp hcheck
    exact kind_of_mem_checksOf (h.methods methodFilter hmem) hcheck hrule

/-! ## What is left -/

variable (jvm reflection)

/-- The rule names a text, and it is the value's; or it names a number. -/
def SameText (check : Check O D) : Prop :=
  match check.2 with
  | .EqualToRule expected => jvm.toText check.1 = expected
  | .GreaterEqualThanRule _ => True

/-- The rule names a number, and the value is less. -/
def Below (check : Check O D) : Prop :=
  ∃ threshold double, check.2 = .GreaterEqualThanRule threshold ∧
    reflection.doubleValue check.1 = some double ∧ double < threshold

/-- The rule names a number, and the value is greater. -/
def Above (check : Check O D) : Prop :=
  ∃ threshold double, check.2 = .GreaterEqualThanRule threshold ∧
    reflection.doubleValue check.1 = some double ∧ threshold < double

/-- The reference is live, and all values are what the rules mean. -/
def Satisfies (filter : InstanceFilter O D) (reference : WeakReference O) : Bool :=
  reference.any fun reference => (checks reflection filter reference.object).all fun check =>
    check.2.means jvm reflection check.1

/-- The filter leaves the references that satisfy it, returns the number of the others, and removes
nothing more when it is run again. -/
def FiltersExactly (filter : InstanceFilter O D) (references : List (WeakReference O)) : Prop :=
  ∃ removed kept,
    ReferenceFilterFactory.filter jvm reflection references filter = (.ok removed, kept) ∧
    kept = references.filter (Satisfies jvm reflection filter) ∧
    removed + kept.length = references.length ∧
    ReferenceFilterFactory.filter jvm reflection kept filter = (.ok 0, kept)

variable {jvm reflection} {references : List (WeakReference O)}

theorem means_iff {check : Check O D}
    (hkind : ∀ threshold, check.2 = .GreaterEqualThanRule threshold →
      ∃ double, reflection.doubleValue check.1 = some double) :
    check.2.means jvm reflection check.1 = true ↔
      SameText jvm check ∧ ¬Below reflection check := by
  obtain ⟨value, rule⟩ := check
  cases rule with
  | EqualToRule expected => simp [Rule.means, SameText, Below]
  | GreaterEqualThanRule threshold =>
    obtain ⟨double, hdouble⟩ := hkind threshold rfl
    simp [Rule.means, SameText, Below, hdouble]

theorem accepts_iff {check : Check O D}
    (hkind : ∀ threshold, check.2 = .GreaterEqualThanRule threshold →
      ∃ double, reflection.doubleValue check.1 = some double) :
    check.2.accepts jvm reflection check.1 = true ↔
      SameText jvm check ∧ ¬Above reflection check := by
  obtain ⟨value, rule⟩ := check
  cases rule with
  | EqualToRule expected => simp [Rule.accepts, SameText, Above]
  | GreaterEqualThanRule threshold =>
    obtain ⟨double, hdouble⟩ := hkind threshold rfl
    simp [Rule.accepts, SameText, Above, hdouble]

theorem decided_of_readable
    (h : ∀ reference ∈ references, ∀ live ∈ reference, Readable reflection filter live.object) :
    ∀ reference ∈ references, Decided jvm reflection filter reference := by
  intro reference hmem
  cases reference with
  | none => exact ⟨false, rfl⟩
  | some live => exact ⟨_, apply_eq (h _ hmem live rfl)⟩

/-- The filter decides as its rules mean where no value is on the one side of a rule's number, or
some are on either side. -/
theorem matching_eq_satisfies_iff {reference : WeakReference O}
    (h : ∀ live ∈ reference, Readable reflection filter live.object) :
    Matching jvm reflection filter reference = Satisfies jvm reflection filter reference ↔
      ∀ live ∈ reference,
        (∀ check ∈ checks reflection filter live.object, SameText jvm check) →
          ((∃ check ∈ checks reflection filter live.object, Below reflection check) ↔
            ∃ check ∈ checks reflection filter live.object, Above reflection check) := by
  cases reference with
  | none => simp [Matching, FallibleFilter.accepts, RuleMatcher.applyTo, Satisfies]
  | some live =>
    have hreadable := h live rfl
    have hmatching : Matching jvm reflection filter (some live) = true ↔
        (∀ check ∈ checks reflection filter live.object, SameText jvm check) ∧
          ¬∃ check ∈ checks reflection filter live.object, Above reflection check := by
      have happly : RuleMatcher.applyTo jvm reflection filter (some live) = _ := apply_eq hreadable
      rw [Matching, FallibleFilter.accepts, happly]
      simp only [List.all_eq_true, not_exists, not_and, ← forall_and]
      exact forall₂_congr fun check hcheck => accepts_iff fun _ => hreadable.kind hcheck
    have hsatisfies : Satisfies jvm reflection filter (some live) = true ↔
        (∀ check ∈ checks reflection filter live.object, SameText jvm check) ∧
          ¬∃ check ∈ checks reflection filter live.object, Below reflection check := by
      simp only [Satisfies, Option.any_some, List.all_eq_true, not_exists, not_and, ← forall_and]
      exact forall₂_congr fun check hcheck => means_iff fun _ => hreadable.kind hcheck
    -- where a text differs both are false; else they are about the two sides of the numbers
    rw [Bool.eq_iff_iff, hmatching, hsatisfies]
    simp only [Option.mem_some_iff, forall_eq']
    rw [and_congr_right_iff, not_iff_not]
    exact imp_congr_right fun _ => iff_comm

theorem filtersExactly_iff_matching
    (h : ∀ reference ∈ references, Decided jvm reflection filter reference) :
    FiltersExactly jvm reflection filter references ↔
      ∀ reference ∈ references,
        Matching jvm reflection filter reference = Satisfies jvm reflection filter reference := by
  have hfilter := FallibleFilter.filter_eq h
  constructor
  -- two filters of a list are the same only if they agree on its elements
  · rintro ⟨removed, kept, hreturn, hkept, -, -⟩ reference hmem
    have hsame : references.filter (Matching jvm reflection filter) =
        references.filter (Satisfies jvm reflection filter) :=
      (congrArg Prod.snd (hfilter.symm.trans hreturn)).trans hkept
    have hiff : reference ∈ references.filter (Matching jvm reflection filter) ↔
        reference ∈ references.filter (Satisfies jvm reflection filter) := by rw [hsame]
    simp only [List.mem_filter, hmem, true_and] at hiff
    exact Bool.eq_iff_iff.mpr hiff
  · intro hsame
    exact ⟨_, _, hfilter, List.filter_congr hsame, FallibleFilter.countP_add_length_filter _ _,
      FallibleFilter.filter_filter h⟩

/-- The references left are those that satisfy the filter exactly if, of each object with the texts
expected, some value is less than what a rule names exactly if some value is greater than what a
rule names. -/
theorem filtersExactly_iff
    (h : ∀ reference ∈ references, ∀ live ∈ reference, Readable reflection filter live.object) :
    FiltersExactly jvm reflection filter references ↔
      ∀ reference ∈ references, ∀ live ∈ reference,
        (∀ check ∈ checks reflection filter live.object, SameText jvm check) →
          ((∃ check ∈ checks reflection filter live.object, Below reflection check) ↔
            ∃ check ∈ checks reflection filter live.object, Above reflection check) := by
  rw [filtersExactly_iff_matching (decided_of_readable h)]
  exact forall₂_congr fun reference hmem => matching_eq_satisfies_iff (h reference hmem)

end Model

/-! ## Instances of a class -/

namespace People

/-- A `Person` with an `Integer age`, and the `Integer`s. -/
inductive Obj where
  | person (age : Option ℤ)
  | integer (value : ℤ)
  deriving DecidableEq

def jvm : Jvm Obj where
  className
    | .person _ => "Person".toList
    | .integer _ => "java.lang.Integer".toList
  hashCode _ := 0
  toText
    | .person _ => "Person".toList
    | .integer value => (toString value).toList
  getBytes _ := []

def reflection : Reflection Obj ℤ where
  getField
    | .person age, name =>
      if name = "age".toList then .ok (age.map .integer)
      else .error (.reflection "NoSuchFieldException".toList)
    | .integer _, _ => .error (.reflection "NoSuchFieldException".toList)
  invoke _ _ _ := .error (.reflection "NoSuchMethodException".toList)
  doubleValue
    | .integer value => some value
    | .person _ => none

def ageFilter (rule : Rule ℤ) : InstanceFilter Obj ℤ where
  fieldFilters := [⟨"age".toList, [rule]⟩]
  methodFilters := []

def reference (age : Option ℤ) : WeakReference Obj := some ⟨.person age⟩

/-- People of 21, 19 and 20 years, and one that has been collected. -/
def people : List (WeakReference Obj) :=
  [reference (some 21), none, reference (some 19), reference (some 20)]

theorem readable_people (rule : Rule ℤ) :
    ∀ person ∈ people, ∀ live ∈ person, Readable reflection (ageFilter rule) live.object := by
  have hage : ∀ age : ℤ, Readable reflection (ageFilter rule) (.person (some age)) := by
    intro age
    constructor
    · intro fieldFilter hmem
      rw [List.mem_singleton.mp hmem]
      exact ⟨.integer age, rfl, fun _ _ => ⟨age, rfl⟩⟩
    · intro methodFilter hmem
      exact absurd hmem List.not_mem_nil
  simp [people, reference, hage]

/-- The filter for people of at least 20 years leaves those of 19 and of 20. -/
theorem not_filtersExactly_people :
    (∀ person ∈ people, ∀ live ∈ person,
      Readable reflection (ageFilter (.GreaterEqualThanRule 20)) live.object) ∧
    ReferenceFilterFactory.filter jvm reflection people (ageFilter (.GreaterEqualThanRule 20)) =
      (.ok 2, [reference (some 19), reference (some 20)]) ∧
    ¬FiltersExactly jvm reflection (ageFilter (.GreaterEqualThanRule 20)) people := by
  refine ⟨readable_people _, by decide, ?_⟩
  rintro ⟨removed, kept, hfilter, hkept, -, -⟩
  have hleft : (ReferenceFilterFactory.filter jvm reflection people
      (ageFilter (.GreaterEqualThanRule 20))).2 = kept := by rw [hfilter]
  rw [hkept] at hleft
  exact absurd hleft (by decide)

/-- The filter for people of 20 years leaves those. -/
theorem filtersExactly_people :
    FiltersExactly jvm reflection (ageFilter (.EqualToRule ['2', '0'])) people := by
  refine (filtersExactly_iff (readable_people _)).mpr ?_
  have hrule : ∀ object, ∀ check ∈ checks reflection (ageFilter (.EqualToRule ['2', '0'])) object,
      check.2 = .EqualToRule ['2', '0'] := by
    intro object check hcheck
    simp only [checks, ageFilter, List.flatMap_cons, List.flatMap_nil, List.append_nil,
      checksOf] at hcheck
    split at hcheck
    · simp only [List.map_cons, List.map_nil, List.mem_singleton] at hcheck
      rw [hcheck]
    · exact absurd hcheck List.not_mem_nil
  intro person _ live _ _
  constructor
  · rintro ⟨check, hcheck, threshold, _, hthreshold, -⟩
    rw [hrule _ _ hcheck] at hthreshold
    exact absurd hthreshold nofun
  · rintro ⟨check, hcheck, threshold, _, hthreshold, -⟩
    rw [hrule _ _ hcheck] at hthreshold
    exact absurd hthreshold nofun

/-! ### A person without an age -/

def id1 : InstanceId := ⟨[1]⟩

def id2 : InstanceId := ⟨[2]⟩

def service : LocalClassInstanceService Obj where
  instanceStore id :=
    if id = id1 then some (reference (some 1)) else if id = id2 then some (reference none) else none

def entries : List (InstanceId × WeakReference Obj) :=
  [(id1, reference (some 1)), (id2, reference none)]

theorem entriesOf : EntriesOf service entries := by
  constructor
  · decide
  · intro id reference
    have hne : id2 ≠ id1 := by decide
    by_cases h1 : id = id1
    · simp [entries, service, h1, hne.symm, eq_comm]
    · by_cases h2 : id = id2
      · simp [entries, service, h2, hne, eq_comm]
      · simp [entries, service, h1, h2]

/-- The filter throws at the second person, after it has removed the first one. -/
theorem filter_throws_and_removes :
    ReferenceFilterFactory.filter jvm reflection (entries.map Prod.snd)
        (ageFilter (.EqualToRule ['2'])) = (.error .nullPointer, [reference none]) ∧
      (service.filter jvm reflection entries (ageFilter (.EqualToRule ['2']))).1 =
        .error .nullPointer ∧
      (service.filter jvm reflection entries (ageFilter (.EqualToRule ['2']))).2.instanceStore id1 =
        none ∧
      service.instanceStore id1 = some (reference (some 1)) := by
  refine ⟨?_, ?_, ?_, ?_⟩ <;> decide +kernel

/-- It stops at one of them. -/
theorem filter_stops :
    EntriesOf service entries ∧
    ∃ before reference after e, entries.map Prod.snd = before ++ reference :: after ∧
      ReferenceFilterFactory.filter jvm reflection (entries.map Prod.snd)
          (ageFilter (.EqualToRule ['2'])) =
        (.error e, before.filter (Matching jvm reflection (ageFilter (.EqualToRule ['2']))) ++
          reference :: after) := by
  refine ⟨entriesOf, ?_⟩
  rcases (filter_returns_or_stops jvm reflection entriesOf (ageFilter (.EqualToRule ['2']))
    (entries.map Prod.snd)).1 with
      ⟨-, hreturns⟩ | ⟨before, reference, after, e, hsplit, -, -, hstops⟩
  · exact absurd (congrArg Prod.fst hreturns) (by decide +kernel)
  · exact ⟨before, reference, after, e, hsplit, hstops⟩

end People

end Jvmti
