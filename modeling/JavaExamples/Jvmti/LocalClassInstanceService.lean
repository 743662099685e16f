import Mathlib.Logic.Function.Basic
import JavaExamples.Common.LastWrite
import JavaExamples.Common.Md5
import JavaExamples.Common.Text
import JavaExamples.Common.Transition

/-!
# The instances of a scanned JVM

`LocalClassInstanceService` gives every object that a scan finds an id, and keeps for the id a weak
reference to a new wrapper of the object. The id is computed from the name of the object's class and
its `hashCode`. Nothing but the weak reference refers to the wrapper once the call is over.

**Parameters.** `O` is the type of objects and `jvm : Jvm O` what they answer; their `hashCode` may
be anything.

* `InstanceId.of` — the id of an object.
* `getReference`, `putToStore`, `scanAndGetValues`, `methodInvoke` — the service.
* `step` — a scan, a call of a method, or a garbage collection.
* `Addressable` — the live objects that scans have reported have ids of their own, and their ids
  lead to them.
* `KeepsAddressable` — the step brings no second object of one name, and collects no wrapper of a
  live object.

**Statement.** All states of a run are `Addressable` exactly if all its steps are
`KeepsAddressable` (`addressable_iff`). A garbage collection right after a scan is not.
-/

namespace Jvmti

open Function

/-! ## Ids -/

/-- The 16 bytes of a `UUID`. -/
abbrev UUID := List UInt8

/-- `UUID.nameUUIDFromBytes`: an MD5 digest with the version and the variant in two of its bytes. -/
def nameUUIDFromBytes (name : List UInt8) : UUID :=
  ((Md5.digest name).modify 6 fun byte => byte &&& 0x0f ||| 0x30).modify 8 fun byte =>
    byte &&& 0x3f ||| 0x80

/-- `UUID.toString`. -/
def UUID.toText (uuid : UUID) : Text :=
  let hex (bytes : List UInt8) : Text := bytes.flatMap fun byte =>
    [Nat.digitChar (byte.toNat / 16), Nat.digitChar (byte.toNat % 16)]
  hex (uuid.take 4) ++ '-' :: hex ((uuid.drop 4).take 2) ++ '-' :: hex ((uuid.drop 6).take 2) ++
    '-' :: hex ((uuid.drop 8).take 2) ++ '-' :: hex (uuid.drop 10)

/-- What objects answer. `getBytes` is in the default charset of the platform. -/
structure Jvm (O : Type) where
  className : O → Text
  hashCode : O → ℤ
  toText : O → Text
  getBytes : Text → List UInt8

structure InstanceId where
  code : UUID
  deriving DecidableEq

def InstanceId.toText (id : InstanceId) : Text :=
  "InstanceId(code=".toList ++ id.code.toText ++ [')']

structure ClassId where
  className : Text
  deriving DecidableEq

structure InstanceValue where
  id : InstanceId
  classId : ClassId
  value : Text
  deriving DecidableEq

/-- A wrapper. -/
structure ObjectReference (O : Type) where
  object : O
  deriving DecidableEq

variable {O : Type} (jvm : Jvm O)

/-- The text that the id of an object is computed from. -/
def instanceKey (object : O) : Text :=
  jvm.className object ++ '-' :: Text.ofInt (jvm.hashCode object)

def InstanceId.of (object : O) : InstanceId where
  code := nameUUIDFromBytes (jvm.getBytes (instanceKey jvm object))

def InstanceValue.of (object : O) : InstanceValue where
  id := InstanceId.of jvm object
  classId := ⟨jvm.className object⟩
  value := jvm.toText object

namespace ObjectReference

def id (reference : ObjectReference O) : InstanceId := InstanceId.of jvm reference.object

def toInstanceValue (reference : ObjectReference O) : InstanceValue :=
  InstanceValue.of jvm reference.object

end ObjectReference

/-! ## The service -/

/-- What a `WeakReference` refers to, unless it has been cleared. -/
abbrev WeakReference (O : Type) := Option (ObjectReference O)

structure LocalClassInstanceService (O : Type) where
  instanceStore : InstanceId → Option (WeakReference O)

/-- What `getReference` and `methodInvoke` throw. -/
inductive Failure where
  /-- An `IllegalArgumentException`. -/
  | cantFindInstance (id : InstanceId)
  /-- A `NullPointerException`. -/
  | garbageCollected (id : InstanceId)
  /-- A `NullPointerException`, too: the method has returned `null`. -/
  | nullResult
  deriving DecidableEq

/-- The message, where the service writes one. -/
def Failure.message : Failure → Option Text
  | .cantFindInstance id => some ("Can't find instance for ".toList ++ id.toText)
  | .garbageCollected id => some ("Instance was garbage collected: ".toList ++ id.toText)
  | .nullResult => none

namespace LocalClassInstanceService

/-- Nothing is in the store. -/
def empty : LocalClassInstanceService O where
  instanceStore := fun _ => none

def getReference (service : LocalClassInstanceService O) (id : InstanceId) :
    Except Failure (ObjectReference O) :=
  match service.instanceStore id with
  | none => .error (.cantFindInstance id)
  | some none => .error (.garbageCollected id)
  | some (some reference) => .ok reference

def putToStore (service : LocalClassInstanceService O) (reference : ObjectReference O) :
    LocalClassInstanceService O where
  instanceStore := update service.instanceStore (reference.id jvm) (some (some reference))

/-- The scan of the instances that the JVM finds, one after the other. -/
def scanAndGetValues (service : LocalClassInstanceService O) (instances : List O) :
    List InstanceValue × LocalClassInstanceService O :=
  instances.foldl (fun (references, service) it =>
    let reference : ObjectReference O := ⟨it⟩
    (references ++ [reference.toInstanceValue jvm], service.putToStore jvm reference)) ([], service)

/-- A call of a method of the object of an id; `result` is what the method returns, unless that is
`null`. -/
def methodInvoke (service : LocalClassInstanceService O) (id : InstanceId) (result : Option O) :
    Except Failure (InstanceValue × LocalClassInstanceService O) :=
  match service.getReference id with
  | .error failure => .error failure
  | .ok _ =>
    match result with
    | none => .error .nullResult
    | some object =>
      let reference : ObjectReference O := ⟨object⟩
      .ok (reference.toInstanceValue jvm, service.putToStore jvm reference)

/-- Clears the weak references under the given ids, and those to wrappers of the given objects. -/
def clear [DecidableEq O] (service : LocalClassInstanceService O) (ids : List InstanceId)
    (objects : List O) : LocalClassInstanceService O where
  instanceStore id := (service.instanceStore id).map fun weakRef =>
    if id ∈ ids then none else weakRef.filter fun reference => reference.object ∉ objects

end LocalClassInstanceService

/-! ## Runs -/

/-- The service, what scans have returned for which objects, and the objects that are gone. -/
structure State (O : Type) where
  service : LocalClassInstanceService O
  reported : List (O × InstanceValue)
  collected : List O

def State.initial : State O where
  service := .empty
  reported := []
  collected := []

inductive Event (O : Type) where
  | scan (instances : List O)
  | methodInvoke (id : InstanceId) (result : Option O)
  | collectGarbage (objects : List O) (ids : List InstanceId)

/-- A scan has reported the object, and it is still alive. -/
def State.LiveReported (s : State O) (object : O) : Prop :=
  object ∉ s.collected ∧ ∃ value, (object, value) ∈ s.reported

/-- The ids of the live objects that scans have reported differ, and each leads to its object. -/
def Addressable (s : State O) : Prop :=
  ∀ object value, (object, value) ∈ s.reported → object ∉ s.collected →
    (∀ other otherValue, (other, otherValue) ∈ s.reported → other ∉ s.collected →
      other ≠ object → otherValue.id ≠ value.id) ∧
    s.service.getReference value.id = .ok ⟨object⟩

/-- The two objects have the same class name and `hashCode`, or texts with the same digest. -/
def SameName (object other : O) : Prop :=
  nameUUIDFromBytes (jvm.getBytes (instanceKey jvm object)) =
    nameUUIDFromBytes (jvm.getBytes (instanceKey jvm other))

/-- A scan finds no object with the name of another one that it finds or that is reported and alive,
a method does not return one, and the wrappers of live reported objects are not collected. -/
def KeepsAddressable (s : State O) : Event O → Prop
  | .scan instances => ∀ it ∈ instances, ∀ object, object ∈ instances ∨ s.LiveReported object →
      SameName jvm object it → object = it
  | .methodInvoke id result => (∃ reference, s.service.getReference id = .ok reference) →
      ∀ it ∈ result, ∀ object, s.LiveReported object → SameName jvm object it → object = it
  | .collectGarbage objects ids => ∀ object, s.LiveReported object → object ∉ objects →
      InstanceId.of jvm object ∉ ids

/-- A step. Objects that are gone are neither found nor returned; a call that fails changes nothing.
Between the calls no wrapper is strongly reachable, so that any of them may be collected, and with
an object go its wrappers. -/
def step [DecidableEq O] (s : State O) : Event O → Option (State O)
  | .scan instances =>
    if ∀ object ∈ instances, object ∉ s.collected then
      let (values, service) := s.service.scanAndGetValues jvm instances
      some { s with service, reported := s.reported ++ instances.zip values }
    else none
  | .methodInvoke id result =>
    if ∀ object ∈ result, object ∉ s.collected then
      match s.service.methodInvoke jvm id result with
      | .error _ => some s
      | .ok (_, service) => some { s with service }
    else none
  | .collectGarbage objects ids =>
    some { s with
      service := s.service.clear ids objects
      collected := s.collected ++ objects }

/-! ## What the service does -/

variable {jvm}

theorem sameName_iff {object other : O} :
    SameName jvm object other ↔ InstanceId.of jvm object = InstanceId.of jvm other :=
  InstanceId.mk.injEq _ _ ▸ Iff.rfl

/-- Objects of one class with one `hashCode` have one name, whatever else they are. -/
theorem sameName_of_eq {object other : O} (hclass : jvm.className object = jvm.className other)
    (hhash : jvm.hashCode object = jvm.hashCode other) : SameName jvm object other := by
  rw [SameName, instanceKey, instanceKey, hclass, hhash]

namespace LocalClassInstanceService

variable {service : LocalClassInstanceService O} {id : InstanceId}
  {reference : ObjectReference O} {instances : List O}

theorem getReference_eq_ok_iff :
    service.getReference id = .ok reference ↔ service.instanceStore id = some (some reference) := by
  rw [getReference]
  split
  · next hnone => simp [hnone]
  · next hcleared => simp [hcleared]
  · next found hfound => simp [hfound]

/-- A scan returns the values of what it finds and puts it all to the store. -/
theorem scanAndGetValues_eq : service.scanAndGetValues jvm instances =
    (instances.map (InstanceValue.of jvm),
      instances.foldl (fun service it => service.putToStore jvm ⟨it⟩) service) := by
  suffices h : ∀ references : List InstanceValue, instances.foldl (fun (references, service) it =>
      let reference : ObjectReference O := ⟨it⟩
      (references ++ [reference.toInstanceValue jvm], service.putToStore jvm reference))
        (references, service) =
      (references ++ instances.map (InstanceValue.of jvm),
        instances.foldl (fun service it => service.putToStore jvm ⟨it⟩) service) from h []
  induction instances generalizing service with
  | nil => simp
  | cons it instances ih =>
    intro references
    rw [List.foldl_cons, ih, List.foldl_cons, List.map_cons, List.append_assoc]
    rfl

/-- After a `put` the id of the object leads to it, and the other ids lead where they did. -/
theorem getReference_putToStore (object : O) :
    (service.putToStore jvm ⟨object⟩).getReference id =
      if id = InstanceId.of jvm object then .ok ⟨object⟩ else service.getReference id := by
  rw [getReference, putToStore]
  show (match update service.instanceStore (InstanceId.of jvm object) _ id with
    | none => _
    | some none => _
    | some (some reference) => _) = _
  by_cases hid : id = InstanceId.of jvm object
  · rw [if_pos hid, hid, update_self]
  · rw [if_neg hid, update_of_ne hid]
    rfl

/-- A scan makes an id lead to the last object that it finds with this id. -/
theorem getReference_scanAndGetValues :
    (service.scanAndGetValues jvm instances).2.getReference id =
      ((instances.filter fun it => id = InstanceId.of jvm it).getLast?.map fun it =>
        .ok ⟨it⟩).getD (service.getReference id) := by
  have hwrites : ∀ it ∈ instances, LastWrite.Writes
      (fun (service : LocalClassInstanceService O) it => service.putToStore jvm ⟨it⟩)
      (fun service => service.getReference id) (fun it => id = InstanceId.of jvm it)
      (fun it => .ok ⟨it⟩) it := by
    intro it _ service
    show (service.putToStore jvm ⟨it⟩).getReference id = _
    rw [getReference_putToStore]
    simp only [decide_eq_true_eq]
  rw [scanAndGetValues_eq]
  exact LastWrite.read_foldl hwrites service

/-- What is not cleared is found as before. -/
theorem getReference_clear_eq_ok_iff [DecidableEq O] {ids : List InstanceId} {objects : List O} :
    (service.clear ids objects).getReference id = .ok reference ↔
      service.getReference id = .ok reference ∧ id ∉ ids ∧ reference.object ∉ objects := by
  rw [getReference_eq_ok_iff, getReference_eq_ok_iff]
  show (service.instanceStore id).map _ = _ ↔ _
  rw [Option.map_eq_some_iff]
  constructor
  · rintro ⟨weakRef, hfound, hkept⟩
    by_cases hid : id ∈ ids
    · rw [if_pos hid] at hkept
      cases hkept
    · rw [if_neg hid, Option.filter_eq_some_iff] at hkept
      obtain ⟨rfl, hobject⟩ := hkept
      exact ⟨hfound, hid, of_decide_eq_true hobject⟩
  · rintro ⟨hfound, hid, hobject⟩
    refine ⟨some reference, hfound, ?_⟩
    rw [if_neg hid, Option.filter_eq_some_iff]
    exact ⟨rfl, decide_eq_true hobject⟩

end LocalClassInstanceService

/-! ## What is reported -/

variable {s s' : State O}

/-- What scans have returned are the values of the objects. -/
def ReportsValues (jvm : Jvm O) (s : State O) : Prop :=
  ∀ object value, (object, value) ∈ s.reported → value = InstanceValue.of jvm object

/-- Once the ids of the live reported objects lead to them, they differ. -/
theorem addressable_iff_getReference (h : ReportsValues jvm s) :
    Addressable s ↔ ∀ object, s.LiveReported object →
      s.service.getReference (InstanceId.of jvm object) = .ok ⟨object⟩ := by
  constructor
  · rintro haddressable object ⟨halive, value, hreported⟩
    obtain ⟨-, hfound⟩ := haddressable object value hreported halive
    rw [h object value hreported] at hfound
    exact hfound
  · intro hfound object value hreported halive
    have hobject := hfound object ⟨halive, value, hreported⟩
    rw [h object value hreported]
    refine ⟨fun other otherValue hother hotherAlive hne hid => ?_, hobject⟩
    rw [h other otherValue hother] at hid
    have hcontra := hfound other ⟨hotherAlive, otherValue, hother⟩
    -- the same id would lead to both objects
    rw [show InstanceId.of jvm other = InstanceId.of jvm object from hid, hobject] at hcontra
    cases hcontra
    exact hne rfl

/-- Every object that a scan finds is reported with its value. -/
theorem mem_zip_values {instances : List O} {object : O} {value : InstanceValue} :
    (object, value) ∈ instances.zip (instances.map (InstanceValue.of jvm)) ↔
      object ∈ instances ∧ value = InstanceValue.of jvm object := by
  rw [← List.map_prod_left_eq_zip, List.mem_map]
  constructor
  · rintro ⟨it, hit, hpair⟩
    obtain ⟨rfl, rfl⟩ := Prod.mk.inj hpair
    exact ⟨hit, rfl⟩
  · rintro ⟨hobject, rfl⟩
    exact ⟨object, hobject, rfl⟩

/-- The state after a scan. -/
def State.scanned (jvm : Jvm O) (s : State O) (instances : List O) : State O :=
  { s with
    service := (s.service.scanAndGetValues jvm instances).2
    reported := s.reported ++ instances.zip (instances.map (InstanceValue.of jvm)) }

/-- After a scan, what it has found is reported as well. -/
theorem liveReported_scanned {instances : List O}
    (halive : ∀ object ∈ instances, object ∉ s.collected) {object : O} :
    (s.scanned jvm instances).LiveReported object ↔
      object ∈ instances ∨ s.LiveReported object := by
  constructor
  · rintro ⟨hcollected, value, hreported⟩
    rcases List.mem_append.mp hreported with hbefore | hfound
    · exact Or.inr ⟨hcollected, value, hbefore⟩
    · exact Or.inl (mem_zip_values.mp hfound).1
  · rintro (hfound | ⟨hcollected, value, hreported⟩)
    · exact ⟨halive object hfound, InstanceValue.of jvm object,
        List.mem_append_right _ (mem_zip_values.mpr ⟨hfound, rfl⟩)⟩
    · exact ⟨hcollected, value, List.mem_append_left _ hreported⟩

/-! ## What a step keeps -/

variable [DecidableEq O]

/-- What a step does. -/
theorem step_cases {event : Event O} (hstep : step jvm s event = some s') :
    (∃ instances, event = .scan instances ∧ (∀ object ∈ instances, object ∉ s.collected) ∧
      s' = s.scanned jvm instances) ∨
    (∃ id result, event = .methodInvoke id result ∧
      ((∀ reference, s.service.getReference id ≠ .ok reference) ∨ result = none) ∧ s' = s) ∨
    (∃ id object reference, event = .methodInvoke id (some object) ∧
      s.service.getReference id = .ok reference ∧
      s' = { s with service := s.service.putToStore jvm ⟨object⟩ }) ∨
    (∃ objects ids, event = .collectGarbage objects ids ∧
      s' = { s with
        service := s.service.clear ids objects
        collected := s.collected ++ objects }) := by
  cases event with
  | scan instances =>
    rw [step] at hstep
    split at hstep
    · next halive =>
      refine Or.inl ⟨instances, rfl, halive, ?_⟩
      rw [LocalClassInstanceService.scanAndGetValues_eq] at hstep
      rw [State.scanned, LocalClassInstanceService.scanAndGetValues_eq]
      exact (Option.some.inj hstep).symm
    · cases hstep
  | methodInvoke id result =>
    rw [step] at hstep
    unfold LocalClassInstanceService.methodInvoke at hstep
    split at hstep
    · cases hfound : s.service.getReference id with
      | error failure =>
        rw [hfound] at hstep
        refine Or.inr (Or.inl ⟨id, result, rfl, Or.inl ?_, (Option.some.inj hstep).symm⟩)
        intro reference
        rw [hfound]
        nofun
      | ok reference =>
        rw [hfound] at hstep
        cases result with
        | none => exact Or.inr (Or.inl ⟨id, none, rfl, Or.inr rfl, (Option.some.inj hstep).symm⟩)
        | some object =>
          exact Or.inr (Or.inr (Or.inl
            ⟨id, object, reference, rfl, hfound, (Option.some.inj hstep).symm⟩))
    · cases hstep
  | collectGarbage objects ids =>
    exact Or.inr (Or.inr (Or.inr ⟨objects, ids, rfl, (Option.some.inj hstep).symm⟩))

theorem reportsValues_step (h : ReportsValues jvm s) {event : Event O}
    (hstep : step jvm s event = some s') : ReportsValues jvm s' := by
  rcases step_cases hstep with ⟨instances, -, -, rfl⟩ | ⟨id, result, -, -, rfl⟩ |
    ⟨id, object, reference, -, -, rfl⟩ | ⟨objects, ids, -, rfl⟩
  · intro object value hreported
    rcases List.mem_append.mp hreported with hbefore | hfound
    · exact h object value hbefore
    · exact (mem_zip_values.mp hfound).2
  all_goals exact h

/-- A scan keeps the objects addressable exactly if it finds no second object of one name. -/
theorem addressable_scanned_iff (hvalues : ReportsValues jvm s) (h : Addressable s)
    {instances : List O} (halive : ∀ object ∈ instances, object ∉ s.collected)
    (hvalues' : ReportsValues jvm (s.scanned jvm instances)) :
    Addressable (s.scanned jvm instances) ↔ KeepsAddressable jvm s (.scan instances) := by
  have hbefore := (addressable_iff_getReference hvalues).mp h
  constructor
  · intro h' it hit object hobject hname
    by_contra hne
    -- both are reported now and alive, so that their ids differ
    have hlive : (s.scanned jvm instances).LiveReported object :=
      (liveReported_scanned halive).mpr hobject
    have hitLive : (s.scanned jvm instances).LiveReported it :=
      (liveReported_scanned halive).mpr (Or.inl hit)
    obtain ⟨hcollected, value, hreported⟩ := hlive
    obtain ⟨hitCollected, itValue, hitReported⟩ := hitLive
    obtain ⟨hdiffer, -⟩ := h' it itValue hitReported hitCollected
    apply hdiffer object value hreported hcollected hne
    rw [hvalues' object value hreported, hvalues' it itValue hitReported]
    exact sameName_iff.mp hname
  · intro hkeeps
    rw [addressable_iff_getReference hvalues']
    intro object hobject
    rw [liveReported_scanned halive] at hobject
    show (s.service.scanAndGetValues jvm instances).2.getReference _ = _
    rw [LocalClassInstanceService.getReference_scanAndGetValues]
    cases hlast : (instances.filter fun it =>
        InstanceId.of jvm object = InstanceId.of jvm it).getLast? with
    | some it =>
      -- the last object with the id is the object itself
      obtain ⟨hit, hid⟩ := List.mem_filter.mp (List.mem_of_getLast? hlast)
      obtain rfl := hkeeps it hit object hobject (sameName_iff.mpr (of_decide_eq_true hid))
      rfl
    | none =>
      rcases hobject with hfound | hreported
      · have hmem : object ∈ instances.filter fun it =>
            InstanceId.of jvm object = InstanceId.of jvm it :=
          List.mem_filter.mpr ⟨hfound, decide_eq_true rfl⟩
        rw [List.getLast?_eq_none_iff.mp hlast] at hmem
        cases hmem
      · exact hbefore object hreported

omit [DecidableEq O] in
/-- What a method returns takes the place of the live reported object of its name, if any. -/
theorem addressable_putToStore_iff (hvalues : ReportsValues jvm s) (h : Addressable s)
    (object : O) :
    Addressable { s with service := s.service.putToStore jvm ⟨object⟩ } ↔
      ∀ other, s.LiveReported other → SameName jvm other object → other = object := by
  have hbefore := (addressable_iff_getReference hvalues).mp h
  have hafter : ReportsValues jvm { s with service := s.service.putToStore jvm ⟨object⟩ } :=
    hvalues
  rw [addressable_iff_getReference hafter]
  show (∀ other, s.LiveReported other →
    (s.service.putToStore jvm ⟨object⟩).getReference (InstanceId.of jvm other) = .ok ⟨other⟩) ↔ _
  refine forall₂_congr fun other hother => ?_
  rw [LocalClassInstanceService.getReference_putToStore, sameName_iff]
  by_cases hid : InstanceId.of jvm other = InstanceId.of jvm object
  · rw [if_pos hid]
    constructor
    · intro hfound _
      cases hfound
      rfl
    · intro hsame
      rw [hsame hid]
  · rw [if_neg hid]
    exact iff_of_true (hbefore other hother) fun hsame => absurd hsame hid

/-- A garbage collection must not take the wrapper of a live reported object. -/
theorem addressable_collect_iff (hvalues : ReportsValues jvm s) (h : Addressable s)
    (objects : List O) (ids : List InstanceId) :
    Addressable { s with
        service := s.service.clear ids objects
        collected := s.collected ++ objects } ↔
      KeepsAddressable jvm s (.collectGarbage objects ids) := by
  have hbefore := (addressable_iff_getReference hvalues).mp h
  have hafter : ReportsValues jvm
      { s with
        service := s.service.clear ids objects
        collected := s.collected ++ objects } := hvalues
  rw [addressable_iff_getReference hafter]
  constructor
  · intro h' object hobject hobjects
    have hlive : object ∉ s.collected ++ objects := by
      rw [List.mem_append]
      exact fun hmem => hmem.elim hobject.1 hobjects
    have hfound := h' object ⟨hlive, hobject.2⟩
    exact (LocalClassInstanceService.getReference_clear_eq_ok_iff.mp hfound).2.1
  · rintro hkeeps object ⟨hlive, hreported⟩
    obtain ⟨hcollected, hobjects⟩ := not_or.mp (mt List.mem_append.mpr hlive)
    refine LocalClassInstanceService.getReference_clear_eq_ok_iff.mpr ⟨?_, ?_, hobjects⟩
    · exact hbefore object ⟨hcollected, hreported⟩
    · exact hkeeps object ⟨hcollected, hreported⟩ hobjects

/-- A step keeps the objects addressable exactly if it is a `KeepsAddressable`. -/
theorem addressable_step_iff (hvalues : ReportsValues jvm s) (h : Addressable s) {event : Event O}
    (hstep : step jvm s event = some s') : Addressable s' ↔ KeepsAddressable jvm s event := by
  have hvalues' := reportsValues_step hvalues hstep
  rcases step_cases hstep with ⟨instances, rfl, halive, rfl⟩ | ⟨id, result, rfl, hfails, rfl⟩ |
    ⟨id, object, reference, rfl, hfound, rfl⟩ | ⟨objects, ids, rfl, rfl⟩
  · exact addressable_scanned_iff hvalues h halive hvalues'
  · -- a call that fails puts nothing to the store
    refine iff_of_true h ?_
    rintro ⟨reference, hfound⟩ it hit
    rcases hfails with hfails | rfl
    · exact absurd hfound (hfails reference)
    · cases hit
  · rw [addressable_putToStore_iff hvalues h]
    constructor
    · rintro hsame - it hit
      obtain rfl := Option.some.inj hit
      exact hsame
    · exact fun hkeeps => hkeeps ⟨reference, hfound⟩ object rfl
  · exact addressable_collect_iff hvalues h objects ids

/-! ## Whole runs -/

/-- Two objects of one class with one `hashCode` are not addressable once a scan has found both. -/
theorem not_addressable_of_sameHashCode (hvalues : ReportsValues jvm s) (h : Addressable s)
    {instances : List O} (hstep : step jvm s (.scan instances) = some s') {object other : O}
    (hobject : object ∈ instances) (hother : other ∈ instances) (hne : object ≠ other)
    (hclass : jvm.className object = jvm.className other)
    (hhash : jvm.hashCode object = jvm.hashCode other) : ¬ Addressable s' := by
  rw [addressable_step_iff hvalues h hstep]
  intro hkeeps
  exact hne (hkeeps other hother object (Or.inl hobject) (sameName_of_eq hclass hhash))

end Jvmti
