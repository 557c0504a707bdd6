import MessageFrame.Container.Calls
import MessageFrame.ForMathlib.PartialMap

/-!
# The container refines a finite map

What the parameter container is for: a finite map from the string `device + 0x1F + param` to
values, in which `add` lets the first value win, `set` the last one, and `update` touches only
what is present. `MapOp.step` is that abstract machine.

The refinement relation reads a container through its lookups only (`Refines`), so it does not
see which of the two storages holds an entry, in which order, or whether the vector also holds
shadowed duplicates; a conversion in the middle of a call is a step that leaves it alone.
-/

namespace MsgFrame

open Msgpack AssocList

/-- The abstract machine: a finite map under the five operations. -/
def MapOp.step : MapOp → PartialMap ByteString ParameterValue →
    Reply × PartialMap ByteString ParameterValue
  | .insert key val, f => (.void, f.insertNew key val)
  | .upsert key val, f => (.void, f.upsert key val)
  | .replace key val, f => (.bool (f key).isSome, f.replace key val)
  | .lookup key, f => (.value (f key), f)
  | .clear, _ => (.void, PartialMap.empty)

/-- The abstract machine, driven by the calls of the API. -/
def MapCall.step (c : MapCall) (f : PartialMap ByteString ParameterValue) :
    Reply × PartialMap ByteString ParameterValue := c.op.step f

namespace HybridMessageMap

variable {μ : Type} [UnorderedMap μ ParameterKey ParameterValue]

/-- The container stands for the finite map: the invariant holds and all lookups agree. -/
structure Refines (m : HybridMessageMap μ) (f : PartialMap ByteString ParameterValue) : Prop where
  inv : m.Inv
  lookup (key : ByteString) : m.entries.lookup ⟨key⟩ = f key

theorem Refines.mem_keys {m : HybridMessageMap μ} {f : PartialMap ByteString ParameterValue}
    (h : Refines m f) (key : ByteString) : ⟨key⟩ ∈ keys m.entries ↔ (f key).isSome := by
  rw [← isSome_lookup, h.lookup]

theorem Refines.replaceFirst {m m' : HybridMessageMap μ} {key : ByteString}
    {val : ParameterValue} {f : PartialMap ByteString ParameterValue} (h : Refines m f)
    (hmem : ⟨key⟩ ∈ keys m.entries) (has : Assigned m ⟨key⟩ val m') :
    Refines m' (f.upsert key val) := by
  refine ⟨has.inv, fun key' => ?_⟩
  rw [has.entries, lookup_replaceFirst hmem, PartialMap.upsert_apply, h.lookup]
  simp

variable [LawfulUnorderedMap μ]

theorem Refines.insertNew {m m' : HybridMessageMap μ} {key : ByteString} {val : ParameterValue}
    {f : PartialMap ByteString ParameterValue} (h : Refines m f)
    (hins : Inserted m ⟨key⟩ val m') : Refines m' (f.insertNew key val) := by
  refine ⟨hins.inv, fun key' => ?_⟩
  rw [hins.lookup, lookup_append_singleton, PartialMap.insertNew_apply, h.lookup]
  simp

/-- Upserting an absent key is inserting it. -/
theorem Refines.upsert {m m' : HybridMessageMap μ} {key : ByteString} {val : ParameterValue}
    {f : PartialMap ByteString ParameterValue} (h : Refines m f)
    (hnot : ⟨key⟩ ∉ keys m.entries) (hins : Inserted m ⟨key⟩ val m') :
    Refines m' (f.upsert key val) := by
  have hnone : ¬(f key).isSome := fun hs => hnot ((h.mem_keys key).mpr hs)
  have heq : f.insertNew key val = f.upsert key val := if_neg hnone
  rw [← heq]
  exact h.insertNew hins

theorem Refines.ofConfig (config : FrameConfig) :
    Refines (ofConfig config : HybridMessageMap μ) PartialMap.empty :=
  ⟨ofConfig_inv config, fun key => by rw [entries_ofConfig, List.lookup_nil]; rfl⟩

/-- **One operation**: its reply is that of the abstract machine, and the states stay related. -/
theorem Refines.effect {m m' : HybridMessageMap μ} {f : PartialMap ByteString ParameterValue}
    {op : MapOp} {r : Reply} (h : Refines m f) (he : Effect m op r m') :
    r = (op.step f).1 ∧ Refines m' (op.step f).2 := by
  cases he with
  | insert hins => exact ⟨rfl, h.insertNew hins⟩
  | upsertOld hmem has => exact ⟨rfl, h.replaceFirst hmem has⟩
  | upsertNew hnot hins => exact ⟨rfl, h.upsert hnot hins⟩
  | @replaceOld key val _ hmem has =>
    have hsome := (h.mem_keys key).mp hmem
    have heq : f.replace key val = f.upsert key val := if_pos hsome
    refine ⟨by simp only [MapOp.step, hsome], ?_⟩
    simp only [MapOp.step, heq]
    exact h.replaceFirst hmem has
  | @replaceMissing key val hnot =>
    have hnone : ¬(f key).isSome := fun hs => hnot ((h.mem_keys key).mpr hs)
    have heq : f.replace key val = f := if_neg hnone
    refine ⟨by simp only [MapOp.step, Bool.not_eq_true _ ▸ hnone], ?_⟩
    simp only [MapOp.step, heq]
    exact h
  | @lookup key => exact ⟨by simp only [MapOp.step, h.lookup key], h⟩
  | clear => exact ⟨rfl, Refines.ofConfig _⟩

/-- **One call** simulates one step of the abstract machine. -/
theorem Refines.exec {m : HybridMessageMap μ} {f : PartialMap ByteString ParameterValue}
    (h : Refines m f) (c : MapCall) :
    ∃ m', c.exec m = .returned (c.step f).1 m' ∧ Refines m' (c.step f).2 := by
  obtain ⟨r, m', hexec, heff⟩ := c.exec_spec h.inv
  obtain ⟨hr, href⟩ := h.effect heff
  exact ⟨m', hr ▸ hexec, href⟩

/-- **A sequence of calls** simulates the abstract machine. -/
theorem Refines.execAll {m : HybridMessageMap μ} {f : PartialMap ByteString ParameterValue}
    (h : Refines m f) (calls : List MapCall) :
    ∃ m', Proc.execAll MapCall.exec calls m =
        .ok ((Proc.runMachine MapCall.step calls f).1.map some, m') ∧
      Refines m' (Proc.runMachine MapCall.step calls f).2 :=
  Proc.execAll_simulates (R := Refines) (G := fun _ _ => True) (fun _ _ _ _ => trivial)
    (fun c _ _ _ _ hR => Refines.exec hR c) calls m f trivial h

/-- **Lookup refinement across both storage modes.** From a fresh container with any sizing
hint, any sequence of calls returns what the finite map returns — every value found, every
result of an update — and afterwards every lookup in pair or flat form agrees with it too. -/
theorem lookup_refinement (config : FrameConfig) (calls : List MapCall) :
    ∃ m₀ m : HybridMessageMap μ, construct config = .returned () m₀ ∧
      Proc.execAll MapCall.exec calls m₀ =
        .ok ((Proc.runMachine MapCall.step calls PartialMap.empty).1.map some, m) ∧
      (∀ device param, m.find device param =
        .ok ((Proc.runMachine MapCall.step calls PartialMap.empty).2
          (composeKey device param))) ∧
      ∀ flatKey : FlatKey, m.findFlat flatKey =
        .ok ((Proc.runMachine MapCall.step calls PartialMap.empty).2 flatKey.view) := by
  obtain ⟨m, hexec, href⟩ := (Refines.ofConfig (μ := μ) config).execAll calls
  refine ⟨_, m, construct_eq config, hexec, fun device param => ?_, fun flatKey => ?_⟩
  · rw [find_eq href.inv, href.lookup]
  · rw [findFlat_eq href.inv, href.lookup]

/-- A key added twice and then updated, with the value of the first `add` overwritten. -/
theorem lookup_refinement_duplicate :
    ∃ m₀ m : HybridMessageMap (ListMap ParameterKey ParameterValue),
      construct {} = .returned () m₀ ∧
      Proc.execAll MapCall.exec
        [.add [97] [98] (.lvalue (.int64 1)), .add [97] [98] (.rvalue (.int64 2)),
          .find [97] [98], .updateFlat (.compose [97] [98]) (.lvalue (.bool true)),
          .update [97] [] (.lvalue .unknown)] m₀ =
        .ok ([some .void, some .void, some (.value (some (.int64 1))), some (.bool true),
          some (.bool false)], m) ∧
      m.find [97] [98] = .ok (some (.bool true)) := by
  obtain ⟨m₀, m, hcons, hexec, hfind, -⟩ :=
    lookup_refinement (μ := ListMap ParameterKey ParameterValue) {}
      [.add [97] [98] (.lvalue (.int64 1)), .add [97] [98] (.rvalue (.int64 2)),
        .find [97] [98], .updateFlat (.compose [97] [98]) (.lvalue (.bool true)),
        .update [97] [] (.lvalue .unknown)]
  exact ⟨m₀, m, hcons, hexec, hfind [97] [98]⟩

end HybridMessageMap

end MsgFrame
