import MessageFrame.ForMathlib.Runs
import MessageFrame.Model.Allocation

/-!
# Pair form, flat form and overloads

Most calls of the parameter API come in four variants: with device and parameter or with a
`FlatKey`, and with the value as an lvalue or as an rvalue. The pair form searches the vector piece
by piece and composes a key of its own for the map; the flat form, meant for hot loops, compares
whole keys and never composes one. They share no code on the way to the storage.

`normal` is the variant of a call in flat form with an lvalue. `normal_execIn` says that a call and
its normal variant are the same procedure: in every state of the container, valid or not, and under
every pattern of failures of the storage allocations. So one may be put for the other anywhere in a
program (`forms_agree`). The allocations that only some variants make, for the copy of an lvalue and
for a composed key, are among those that succeed here.
-/

namespace MsgFrame

open Msgpack

namespace HybridMessageMap

variable {μ : Type} [UnorderedMap μ ParameterKey ParameterValue]

/-- A search by device and parameter is a search for the composed key, in every state. -/
theorem findRef_eq_findViewRef (m : HybridMessageMap μ) (device param : ByteString) :
    m.findRef device param = m.findViewRef (composeKey device param) := by
  have hscan : (fun pair : ParameterKey × ParameterValue =>
      keyMatches device param pair.1.fullKey) =
      fun pair => .ok (decide (pair.1.fullKey = composeKey device param)) := by
    funext pair
    exact keyMatches_eq device param pair.1.fullKey
  have hkey : (device ++ [separator]) ++ param = composeKey device param := by
    rw [composeKey, List.append_assoc, List.singleton_append]
  unfold findRef findViewRef
  rw [hscan, hkey]

/-- The writers search as `find` does. -/
theorem findForWrite_eq_findRef (m : HybridMessageMap μ) (device param : ByteString) :
    m.findForWrite device param = m.findRef device param := by
  unfold findForWrite mapFindMutable findRef
  split_ifs <;> rfl

/-- Both helpers of `add_impl` emplace under the composed key. -/
theorem mapEmplace_eq_emplace (device param : ByteString) (val : Arg) :
    (mapEmplace device param val : Proc (HybridMessageMap μ) Unit) =
      onMap (UnorderedMap.emplace · ⟨(FlatKey.compose device param).view⟩ val.value) := by
  rw [FlatKey.view_compose, ← ParameterKey.ofParts_eq]
  cases val <;> rfl

theorem findRef_compose (m : HybridMessageMap μ) (device param : ByteString) :
    m.findRef device param = m.findFlatRef (.compose device param) := by
  rw [findRef_eq_findViewRef, findFlatRef, FlatKey.view_compose]

theorem add_eq_addFlat (device param : ByteString) (val : Arg) :
    (add device param val : Proc (HybridMessageMap μ) Unit) =
      addFlat (.compose device param) val := by
  unfold add addFlat
  rw [mapEmplace_eq_emplace, ParameterKey.ofParts_eq, FlatKey.view_compose]

theorem set_eq_setFlat (device param : ByteString) (val : Arg) :
    (set device param val : Proc (HybridMessageMap μ) Unit) =
      setFlat (.compose device param) val := by
  unfold set setFlat
  simp only [findForWrite_eq_findRef, findRef_compose, add_eq_addFlat]

theorem update_eq_updateFlat (device param : ByteString) (val : Arg) :
    (update device param val : Proc (HybridMessageMap μ) Bool) =
      updateFlat (.compose device param) val := by
  unfold update updateFlat
  simp only [findForWrite_eq_findRef, findRef_compose]

theorem find_eq_findFlat (m : HybridMessageMap μ) (device param : ByteString) :
    m.find device param = m.findFlat (.compose device param) := by
  unfold find findFlat
  rw [findRef_compose]

end HybridMessageMap

namespace Memory

variable {μ : Type} [UnorderedMap μ ParameterKey ParameterValue] (fails : ℕ → Bool)

theorem add_eq_addFlat (device param : ByteString) (val : Arg) :
    (add fails device param val : Proc (Memory μ) Unit) =
      addFlat fails (.compose device param) val := by
  unfold add addFlat
  rw [HybridMessageMap.mapEmplace_eq_emplace, ParameterKey.ofParts_eq, FlatKey.view_compose]

theorem set_eq_setFlat (device param : ByteString) (val : Arg) :
    (set fails device param val : Proc (Memory μ) Unit) =
      setFlat fails (.compose device param) val := by
  unfold set setFlat
  simp only [HybridMessageMap.findForWrite_eq_findRef, HybridMessageMap.findRef_compose,
    add_eq_addFlat]

end Memory

/-- The call in flat form, with the value as an lvalue. -/
def MapCall.normal : MapCall → MapCall
  | .add device param val => .addFlat (.compose device param) (.lvalue val.value)
  | .addFlat flatKey val => .addFlat flatKey (.lvalue val.value)
  | .set device param val => .setFlat (.compose device param) (.lvalue val.value)
  | .setFlat flatKey val => .setFlat flatKey (.lvalue val.value)
  | .update device param val => .updateFlat (.compose device param) (.lvalue val.value)
  | .updateFlat flatKey val => .updateFlat flatKey (.lvalue val.value)
  | .find device param => .findFlat (.compose device param)
  | .findFlat flatKey => .findFlat flatKey
  | .clear => .clear

variable {μ : Type} [UnorderedMap μ ParameterKey ParameterValue]

/-- **A call and its normal variant** do the same to a container in any state. -/
theorem MapCall.normal_exec (c : MapCall) :
    (c.normal.exec : Proc (HybridMessageMap μ) Reply) = c.exec := by
  cases c with
  | add device param val =>
    simp only [MapCall.normal, MapCall.exec, HybridMessageMap.add_eq_addFlat]
    cases val <;> rfl
  | set device param val =>
    simp only [MapCall.normal, MapCall.exec, HybridMessageMap.set_eq_setFlat]
    cases val <;> rfl
  | update device param val =>
    simp only [MapCall.normal, MapCall.exec, HybridMessageMap.update_eq_updateFlat]
    cases val <;> rfl
  | find device param =>
    simp only [MapCall.normal, MapCall.exec, HybridMessageMap.find_eq_findFlat]
  | addFlat flatKey val | setFlat flatKey val | updateFlat flatKey val => cases val <;> rfl
  | findFlat flatKey | clear => rfl

/-- **A call and its normal variant** do the same under memory pressure. -/
theorem MapCall.normal_execIn (fails : ℕ → Bool) (c : MapCall) :
    (c.normal.execIn fails : Proc (Memory μ) Reply) = c.execIn fails := by
  cases c with
  | add device param val =>
    simp only [MapCall.normal, MapCall.execIn, Memory.add_eq_addFlat]
    cases val <;> rfl
  | set device param val =>
    simp only [MapCall.normal, MapCall.execIn, Memory.set_eq_setFlat]
    cases val <;> rfl
  | update device param val =>
    exact congrArg Memory.onContainer (MapCall.normal_exec (.update device param val))
  | find device param =>
    exact congrArg Memory.onContainer (MapCall.normal_exec (.find device param))
  | addFlat flatKey val | setFlat flatKey val | updateFlat flatKey val => cases val <;> rfl
  | findFlat flatKey | clear => rfl

/-- **The fast path agrees with the plain one.** Replace any calls of a program by their variants:
in pair form or flat form, with lvalues or rvalues. From every state of the container, and whichever
allocations of storage fail, the replies, the exceptions and the container are the same. -/
theorem forms_agree (fails : ℕ → Bool) {calls calls' : List MapCall}
    (h : calls.map MapCall.normal = calls'.map MapCall.normal) (s : Memory μ) :
    Proc.execAll (MapCall.execIn fails) calls s = Proc.execAll (MapCall.execIn fails) calls' s ∧
      Proc.execAll MapCall.exec calls s.container =
        Proc.execAll MapCall.exec calls' s.container := by
  have hmemory : ∀ cs : List MapCall, Proc.execAll (MapCall.execIn fails) cs s =
      Proc.execAll (MapCall.execIn fails) (cs.map MapCall.normal) s := by
    intro cs
    rw [Proc.execAll_map]
    simp only [MapCall.normal_execIn]
  have hcontainer : ∀ cs : List MapCall, Proc.execAll MapCall.exec cs s.container =
      Proc.execAll MapCall.exec (cs.map MapCall.normal) s.container := by
    intro cs
    rw [Proc.execAll_map]
    simp only [MapCall.normal_exec]
  exact ⟨by rw [hmemory calls, h, ← hmemory calls'],
    by rw [hcontainer calls, h, ← hcontainer calls']⟩

/-- The same three calls in pair form and in flat form, when there is no memory at all. -/
theorem forms_agree_flat :
    Proc.execAll (MapCall.execIn fun _ => true) [.set [97] [98] (.rvalue .unknown),
        .add [97] [] (.lvalue (.int64 1)), .find [97] []]
        (⟨{}, 1, 0⟩ : Memory (ListMap ParameterKey ParameterValue)) =
      Proc.execAll (MapCall.execIn fun _ => true) [.setFlat (.compose [97] [98]) (.lvalue .unknown),
        .addFlat (.compose [97] []) (.lvalue (.int64 1)), .findFlat (.compose [97] [])]
        ⟨{}, 1, 0⟩ :=
  (forms_agree (fun _ => true) rfl _).1

end MsgFrame
