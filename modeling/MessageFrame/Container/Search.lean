import MessageFrame.Model.HybridMessageMap

/-!
# The search for a key

A key is searched for by `find`, `set_impl` and `update_impl`. In vector mode each of them scans
the vector with its own copy of the piecewise comparison, in map mode with a key that is
composed first. `piecewise_comparison` says that all of this amounts to equality with the
composed key, for stored keys of any shape — also those that were read off the wire and have no
separator or several — and that nothing is accessed outside the stored key. Neither the size of
the vector nor the invariant of the container matters.
-/

namespace MsgFrame

open Msgpack

namespace HybridMessageMap

variable {μ : Type} [UnorderedMap μ ParameterKey ParameterValue]

/-- The scan of the vector in `find` never fails and ends at the first entry with the composed
key. -/
private theorem findRef_vector (l : List (ParameterKey × ParameterValue)) (cfg : FrameConfig)
    (spare : Option μ) (device param : ByteString) :
    (⟨true, l, cfg, spare⟩ : HybridMessageMap μ).findRef device param =
      .ok ((l.findIdx? fun e => decide (e.1.fullKey = composeKey device param)).map .vector) := by
  have hscan : Checked.findIf (fun pair => keyMatches device param pair.1.fullKey) l =
      .ok (l.findIdx? fun e => decide (e.1.fullKey = composeKey device param)) :=
    Checked.findIf_eq (fun e => keyMatches_eq device param e.1.fullKey) l
  simp only [findRef, if_true, hscan]
  rfl

/-- `set_impl` and `update_impl` scan the vector as `find` does. -/
private theorem findForWrite_vector (l : List (ParameterKey × ParameterValue))
    (cfg : FrameConfig) (spare : Option μ) (device param : ByteString) :
    (⟨true, l, cfg, spare⟩ : HybridMessageMap μ).findForWrite device param =
      (⟨true, l, cfg, spare⟩ : HybridMessageMap μ).findRef device param := rfl

/-- **The piecewise comparison is equality with the composed key, in bounds.** For any bytes in
the stored key: the comparison has a result, which is whether the key is `device + 0x1F + param`.
Once the length test has passed, the compared prefix, the index of the separator and the start
of the suffix lie inside the key. The three places that compose a key — `ParameterKey`, `FlatKey`
and the map branch of `find` — compose this one, and the three scans of the vector find the first
entry that has it. -/
theorem piecewise_comparison (key device param : ByteString) :
    keyMatches device param key = .ok (decide (key = device ++ separator :: param)) ∧
    (key.length = device.length + 1 + param.length →
      device.length ≤ key.length ∧ device.length < key.length ∧ device.length + 1 ≤ key.length) ∧
    ((ParameterKey.ofParts device param).fullKey = key ↔ key = device ++ separator :: param) ∧
    ((FlatKey.compose device param).view = key ↔ key = device ++ separator :: param) ∧
    (∀ (cfg : FrameConfig) (map : μ),
      (⟨false, [], cfg, some map⟩ : HybridMessageMap μ).findRef device param =
        .ok ((UnorderedMap.find map ⟨device ++ separator :: param⟩).map fun _ =>
          .map ⟨device ++ separator :: param⟩)) ∧
    ∀ (l : List (ParameterKey × ParameterValue)) (cfg : FrameConfig) (spare : Option μ),
      (⟨true, l, cfg, spare⟩ : HybridMessageMap μ).findRef device param =
        .ok ((l.findIdx? fun e => decide (e.1.fullKey = device ++ separator :: param)).map
          .vector) ∧
      (⟨true, l, cfg, spare⟩ : HybridMessageMap μ).findForWrite device param =
        .ok ((l.findIdx? fun e => decide (e.1.fullKey = device ++ separator :: param)).map
          .vector) := by
  have hscan := fun (l : List (ParameterKey × ParameterValue)) (cfg : FrameConfig)
    (spare : Option μ) => findRef_vector l cfg spare device param
  refine ⟨keyMatches_eq device param key, fun hlen => ?_, ?_, ?_, fun cfg map => ?_,
    fun l cfg spare => ⟨hscan l cfg spare, ?_⟩⟩
  · omega
  · rw [ParameterKey.ofParts_eq]
    exact eq_comm
  · rw [FlatKey.view_compose]
    exact eq_comm
  · have hkey : (device ++ [separator]) ++ param = device ++ separator :: param := by
      rw [List.append_assoc, List.singleton_append]
    simp only [findRef, hkey]
    rfl
  · rw [findForWrite_vector]
    exact hscan l cfg spare

end HybridMessageMap

end MsgFrame
