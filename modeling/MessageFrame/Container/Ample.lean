import MessageFrame.Container.Allocation
import MessageFrame.Container.Refinement

/-!
# The container with ample memory

Where the oracle lets every allocation succeed (`ample`), a call under memory pressure does to the
container what the call does to a container by itself (`MapCall.execIn_projects`), so what is known
of containers carries over: from a container that stands for a finite map, every sequence of calls
replies as the finite map does (`execAll_of_refines`).
-/

namespace MsgFrame

open Msgpack AssocList

namespace Memory

variable {μ α : Type} [UnorderedMap μ ParameterKey ParameterValue]

/-- The oracle that lets every allocation succeed. -/
def ample : ℕ → Bool := fun _ => false

/-! ### Storage -/

omit [UnorderedMap μ ParameterKey ParameterValue] in
theorem onContainer_projects (x : Proc (HybridMessageMap μ) α) :
    Proc.Projects Memory.container (onContainer x) x :=
  .onField (fun _ _ => rfl) x

omit [UnorderedMap μ ParameterKey ParameterValue] in
theorem allocate_projects :
    Proc.Projects (Memory.container (μ := μ)) (allocate ample) (pure ()) := by
  intro s
  rw [allocate_of_not_fails rfl]
  rfl

omit [UnorderedMap μ ParameterKey ParameterValue] in
theorem reserveVector_projects (n : ℕ) :
    Proc.Projects (Memory.container (μ := μ)) (reserveVector ample n) (pure ()) := by
  intro s
  rw [reserveVector_eq]
  split_ifs
  · rfl
  · contradiction
  · rfl

omit [UnorderedMap μ ParameterKey ParameterValue] in
theorem growVector_projects :
    Proc.Projects (Memory.container (μ := μ)) (growVector ample) (pure ()) := by
  refine .get_bind_left fun s => ?_
  dsimp only
  split_ifs
  · exact reserveVector_projects _
  · exact .pure ()

theorem makeMap_projects : Proc.Projects (Memory.container (μ := μ)) (makeMap ample)
    (Proc.modify fun m => { m with mapStorage := some UnorderedMap.empty }) :=
  allocate_projects.before (onContainer_projects _)

theorem ensureMap_projects : Proc.Projects (Memory.container (μ := μ)) (ensureMap ample)
    (Proc.modify fun m =>
      if m.mapStorage.isNone then { m with mapStorage := some UnorderedMap.empty } else m) := by
  intro s
  unfold ensureMap
  rw [Proc.get_bind, Proc.modify_apply]
  split_ifs
  · exact makeMap_projects s
  · rfl

theorem reserveMap_projects (n : ℕ) : Proc.Projects (Memory.container (μ := μ))
    (reserveMap ample n) (HybridMessageMap.onMap (UnorderedMap.reserve · n)) := by
  intro s
  unfold reserveMap
  rw [Proc.get_bind]
  cases hmap : s.container.derefMap with
  | error e =>
    have hfault : HybridMessageMap.onMap (UnorderedMap.reserve · n) s.container =
        .undefined e := by
      unfold HybridMessageMap.onMap
      rw [Proc.get_bind, hmap, Proc.eval_error_bind]
    rw [Proc.eval_error_bind, hfault]
    rfl
  | ok map =>
    rw [Proc.eval_ok_bind]
    exact allocate_projects.before (onContainer_projects _) s

theorem primeStorage_projects : Proc.Projects (Memory.container (μ := μ)) (primeStorage ample)
    HybridMessageMap.primeStorage := by
  refine .get_bind fun s => .ite ?_ ?_
  · refine (onContainer_projects _).bind fun _ => makeMap_projects.bind fun _ => ?_
    exact reserveMap_projects _
  · exact (onContainer_projects _).after fun _ => reserveVector_projects _

theorem clear_projects :
    Proc.Projects (Memory.container (μ := μ)) (clear ample) HybridMessageMap.clear := by
  refine (onContainer_projects _).bind fun _ => (onContainer_projects _).bind fun _ =>
    (onContainer_projects _).bind fun _ => primeStorage_projects.tryCatch fun m m' => ?_
  unfold HybridMessageMap.primeStorage
  rw [Proc.get_bind]
  split_ifs
  · exact fun h => by cases h
  · exact fun h => by cases h

/-! ### Calls -/

theorem convertToMap_projects : Proc.Projects (Memory.container (μ := μ)) (convertToMap ample)
    HybridMessageMap.convertToMap := by
  intro s
  have hample : ∀ i < conversionAllocations s.container, ample (s.attempts + i) = false :=
    fun _ _ => rfl
  obtain ⟨s', hthis, hbase⟩ := convertToMap_returned hample
  rw [hthis, hbase]
  rfl

omit [UnorderedMap μ ParameterKey ParameterValue] in
theorem emplaceBack_projects (key : ParameterKey) (val : ParameterValue) :
    Proc.Projects (Memory.container (μ := μ)) (emplaceBack ample key val)
      (HybridMessageMap.emplaceBack key val) :=
  growVector_projects.before (onContainer_projects _)

theorem add_projects (device param : ByteString) (val : Arg) :
    Proc.Projects (Memory.container (μ := μ)) (add ample device param val)
      (HybridMessageMap.add device param val) := by
  refine .get_bind fun s => .ite (.ite ?_ ?_) ?_
  · exact convertToMap_projects.bind fun _ => onContainer_projects _
  · exact emplaceBack_projects _ _
  · exact onContainer_projects _

theorem addFlat_projects (flatKey : FlatKey) (val : Arg) :
    Proc.Projects (Memory.container (μ := μ)) (addFlat ample flatKey val)
      (HybridMessageMap.addFlat flatKey val) := by
  refine .get_bind fun s => .ite (.ite ?_ ?_) ?_
  · exact convertToMap_projects.bind fun _ => onContainer_projects _
  · exact emplaceBack_projects _ _
  · exact onContainer_projects _

theorem set_projects (device param : ByteString) (val : Arg) :
    Proc.Projects (Memory.container (μ := μ)) (set ample device param val)
      (HybridMessageMap.set device param val) := by
  refine .get_bind fun s => (Proc.Projects.eval _).bind fun existing => ?_
  cases existing with
  | none => exact add_projects device param val
  | some ref => exact onContainer_projects _

theorem setFlat_projects (flatKey : FlatKey) (val : Arg) :
    Proc.Projects (Memory.container (μ := μ)) (setFlat ample flatKey val)
      (HybridMessageMap.setFlat flatKey val) := by
  refine .get_bind fun s => (Proc.Projects.eval _).bind fun existing => ?_
  cases existing with
  | none => exact addFlat_projects flatKey val
  | some ref => exact onContainer_projects _

theorem unpackEntry_projects (M : Codec) (pair : Object × Object) :
    Proc.Projects (Memory.container (μ := μ)) (unpackEntry ample M pair)
      (HybridMessageMap.unpackEntry M pair) := by
  refine (Proc.Projects.orThrow _).bind fun keyView => (Proc.Projects.orThrow _).bind fun val => ?_
  refine .get_bind fun s => .ite ?_ ?_
  · exact emplaceBack_projects _ _
  · exact onContainer_projects _

/-- **`unpack` with ample memory** is the `unpack` of a container by itself. -/
theorem unpack_projects (M : Codec) (obj : Object) :
    Proc.Projects (Memory.container (μ := μ)) (unpack ample M obj)
      (HybridMessageMap.unpack M obj) := by
  refine clear_projects.bind fun _ => ?_
  cases obj with
  | map pairs =>
    have hloop := Proc.Projects.forEach (unpackEntry_projects (μ := μ) M) pairs
    refine .ite ?_ ?_
    · refine ensureMap_projects.bind fun _ => (reserveMap_projects _).bind fun _ => ?_
      exact (onContainer_projects _).bind fun _ => hloop
    · exact (onContainer_projects _).bind fun _ => hloop
  | _ => exact .pure ()

end Memory

open Memory in
/-- **With ample memory** a call does to the container what it does to a container by itself. -/
theorem MapCall.execIn_projects {μ : Type} [UnorderedMap μ ParameterKey ParameterValue]
    (c : MapCall) : Proc.Projects (Memory.container (μ := μ)) (c.execIn ample) c.exec := by
  cases c with
  | add device param val => exact (add_projects device param val).bind fun _ => .pure _
  | addFlat flatKey val => exact (addFlat_projects flatKey val).bind fun _ => .pure _
  | set device param val => exact (set_projects device param val).bind fun _ => .pure _
  | setFlat flatKey val => exact (setFlat_projects flatKey val).bind fun _ => .pure _
  | update device param val => exact onContainer_projects _
  | updateFlat flatKey val => exact onContainer_projects _
  | find device param => exact onContainer_projects _
  | findFlat flatKey => exact onContainer_projects _
  | clear => exact clear_projects.bind fun _ => .pure _

/-- **A container that stands for a finite map** replies as the finite map does, as long as there
is memory. -/
theorem Memory.execAll_of_refines {μ : Type} [UnorderedMap μ ParameterKey ParameterValue]
    [LawfulUnorderedMap μ] {s : Memory μ} {f : PartialMap ByteString ParameterValue}
    (h : s.container.Refines f) (calls : List MapCall) :
    ∃ s', Proc.execAll (MapCall.execIn ample) calls s =
        .ok ((Proc.runMachine MapCall.step calls f).1.map some, s') ∧
      s'.container.Refines (Proc.runMachine MapCall.step calls f).2 := by
  obtain ⟨m, hexec, href⟩ := h.execAll calls
  obtain ⟨s', hall, rfl⟩ := Proc.execAll_of_projects MapCall.execIn_projects hexec
  exact ⟨s', hall, href⟩

end MsgFrame
