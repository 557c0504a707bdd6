import MessageFrame.Frame.Calls

/-!
# What a move leaves behind

A move is sound for its target: it has the entries, and for frames also the header and the
attachments, of the source. Whether it is sound for its *source* depends on the storage mode
the source was in. Nothing is assumed of the containers and frames here, valid or not.

`BehavesValid` says of an object that it can go on being used: some object that satisfies the
mode/storage invariant replies the same to every sequence of uses, and neither runs into
undefined behaviour. Being assigned to is one of the uses.
-/

namespace MsgFrame

open Msgpack AssocList

variable {μ : Type} [UnorderedMap μ ParameterKey ParameterValue]

namespace HybridMessageMap

/-- Two containers hold the same entries, as far as a client can tell. -/
structure SameEntries (m m' : HybridMessageMap μ) : Prop where
  size : m.size = m'.size
  find (device param : ByteString) : m.find device param = m'.find device param
  findFlat (flatKey : FlatKey) : m.findFlat flatKey = m'.findFlat flatKey
  iterate : m.visits = m'.visits

/-- The sizing hint is not part of the entries. -/
theorem sameEntries_with_cfg (m : HybridMessageMap μ) (config : FrameConfig) :
    SameEntries { m with cfg := config } m := ⟨rfl, fun _ _ => rfl, fun _ => rfl, rfl⟩

/-- The uses of a container: its member functions, and being assigned to. -/
inductive ContainerUse (μ : Type) [UnorderedMap μ ParameterKey ParameterValue] where
  | call (c : ContainerCall)
  | assigned (other : HybridMessageMap μ) (valid : other.Inv)

/-- Execute a use. -/
def ContainerUse.exec (M : Codec) : ContainerUse μ → Proc (HybridMessageMap μ) ContainerReply
  | .call c => c.exec M
  | .assigned other _ => do
    Proc.modify fun m => (moveAssign false m other).1
    pure .void

/-- Every sequence of uses goes as on a container that satisfies the invariant. -/
def BehavesValid (M : Codec) (m : HybridMessageMap μ) : Prop :=
  ∃ n : HybridMessageMap μ, n.Inv ∧ ∀ uses : List (ContainerUse μ), ∃ rs m' n',
    Proc.execAll (ContainerUse.exec M) uses m = .ok (rs, m') ∧
    Proc.execAll (ContainerUse.exec M) uses n = .ok (rs, n')

/-- A hollow container does not even tell its size. -/
theorem Hollow.not_behavesValid {m : HybridMessageMap μ} (h : m.Hollow) (M : Codec) :
    ¬BehavesValid M m := by
  rintro ⟨n, -, huses⟩
  obtain ⟨rs, m', n', hexec, -⟩ := huses [.call .size]
  have hsize : ContainerUse.exec M (.call .size) m = .undefined .nullDereference := by
    rw [ContainerUse.exec, ContainerCall.exec, Proc.get_bind, h.size_eq]
    rfl
  rw [Proc.execAll, hsize] at hexec
  cases hexec

variable [LawfulUnorderedMap μ]

theorem ContainerUse.exec_spec (M : Codec) (u : ContainerUse μ) :
    Proc.Spec (Inv (μ := μ)) (u.exec M) (fun _ => Inv) Inv := by
  cases u with
  | call c => exact c.exec_spec M
  | assigned other valid => exact fun m _ => valid.with_cfg m.cfg

theorem Inv.behavesValid {m : HybridMessageMap μ} (h : m.Inv) (M : Codec) : BehavesValid M m := by
  refine ⟨m, h, fun uses => ?_⟩
  obtain ⟨rs, m', hexec, -⟩ := Proc.execAll_invariant (ContainerUse.exec_spec M) uses h
  exact ⟨rs, m', m', hexec, hexec⟩

/-- What is left of a container can be used exactly if it was in vector mode. -/
theorem behavesValid_moveConstruct_snd (M : Codec) (m : HybridMessageMap μ) :
    BehavesValid M (moveConstruct m).2 ↔ m.isVectorMode = true := by
  refine ⟨fun h => ?_, fun hmode => (moveConstruct_snd_inv hmode).behavesValid M⟩
  by_contra hmode
  exact (moveConstruct_snd_hollow (Bool.not_eq_true _ ▸ hmode)).not_behavesValid M h

end HybridMessageMap

namespace MessageFrame

open HybridMessageMap

/-- Two frames have the same content, as far as a client can tell. -/
structure SameContent (f f' : MessageFrame μ) : Prop where
  header : f.header = f'.header
  parameters : SameEntries f.parameters f'.parameters
  attachments : f.attachments = f'.attachments

/-- The uses of a frame, being assigned to included. -/
inductive AnyUse (μ : Type) [UnorderedMap μ ParameterKey ParameterValue] where
  | use (u : FrameUse)
  | assigned (other : MessageFrame μ) (valid : other.parameters.Inv)

/-- Execute a use. -/
def AnyUse.exec (M : Codec) : AnyUse μ → Proc (MessageFrame μ) ContainerReply
  | .use u => u.exec M
  | .assigned other _ => do
    Proc.modify fun f => (moveAssign f other).1
    pure .void

/-- Every sequence of uses goes as on a frame that satisfies the invariant. -/
def BehavesValid (M : Codec) (f : MessageFrame μ) : Prop :=
  ∃ g : MessageFrame μ, g.parameters.Inv ∧ ∀ uses : List (AnyUse μ), ∃ rs f' g',
    Proc.execAll (AnyUse.exec M) uses f = .ok (rs, f') ∧
    Proc.execAll (AnyUse.exec M) uses g = .ok (rs, g')

theorem not_behavesValid {f : MessageFrame μ} (h : f.parameters.Hollow) (M : Codec) :
    ¬BehavesValid M f := by
  rintro ⟨g, -, huses⟩
  obtain ⟨rs, f', g', hexec, -⟩ := huses [.use .size]
  have hsize : AnyUse.exec M (.use .size) f = .undefined .nullDereference := by
    have hpsize : f.parametersSize = .error .nullDereference := h.size_eq
    rw [AnyUse.exec, FrameUse.exec, Proc.get_bind, hpsize]
    rfl
  rw [Proc.execAll, hsize] at hexec
  cases hexec

variable [LawfulUnorderedMap μ]

theorem AnyUse.exec_spec (M : Codec) (u : AnyUse μ) :
    Proc.Spec (fun f : MessageFrame μ => f.parameters.Inv) (u.exec M)
      (fun _ f => f.parameters.Inv) fun f => f.parameters.Inv := by
  cases u with
  | use u => exact (u.exec_spec M).mono (fun _ _ hf => hf) fun _ hf => hf.2
  | assigned other valid => exact fun f _ => valid.with_cfg f.parameters.cfg

theorem behavesValid_of_inv {f : MessageFrame μ} (h : f.parameters.Inv) (M : Codec) :
    BehavesValid M f := by
  refine ⟨f, h, fun uses => ?_⟩
  obtain ⟨rs, f', hexec, -⟩ := Proc.execAll_invariant (AnyUse.exec_spec M) uses h
  exact ⟨rs, f', f', hexec, hexec⟩

/-- What is left of a frame can be used exactly if its container was in vector mode. -/
theorem behavesValid_moveConstruct_snd (M : Codec) (f : MessageFrame μ) :
    BehavesValid M (moveConstruct f).2 ↔ f.parameters.isVectorMode = true := by
  refine ⟨fun h => ?_, fun hmode =>
    behavesValid_of_inv (HybridMessageMap.moveConstruct_snd_inv hmode) M⟩
  by_contra hmode
  exact not_behavesValid
    (HybridMessageMap.moveConstruct_snd_hollow (Bool.not_eq_true _ ▸ hmode)) M h

end MessageFrame

open HybridMessageMap in
/-- **When moves leave both sides valid.** A move, by construction or by assignment, of a
container or of a frame, gives the target the entries of the source and leaves the source
usable exactly when the source was in vector mode. A self-assignment changes nothing. -/
theorem moves_leave_both_valid [LawfulUnorderedMap μ] (M : Codec) :
    (∀ m : HybridMessageMap μ,
      SameEntries (moveConstruct m).1 m ∧ BehavesValid M (moveConstruct m).2 ↔
        m.isVectorMode = true) ∧
    (∀ t m : HybridMessageMap μ,
      SameEntries (moveAssign false t m).1 m ∧ BehavesValid M (moveAssign false t m).2 ↔
        m.isVectorMode = true) ∧
    (∀ m : HybridMessageMap μ, moveAssign true m m = (m, m)) ∧
    (∀ f : MessageFrame μ,
      MessageFrame.SameContent (MessageFrame.moveConstruct f).1 f ∧
          MessageFrame.BehavesValid M (MessageFrame.moveConstruct f).2 ↔
        f.parameters.isVectorMode = true) ∧
    ∀ g f : MessageFrame μ,
      MessageFrame.SameContent (MessageFrame.moveAssign g f).1 f ∧
          MessageFrame.BehavesValid M (MessageFrame.moveAssign g f).2 ↔
        f.parameters.isVectorMode = true := by
  refine ⟨fun m => ?_, fun t m => ?_, fun m => rfl, fun f => ?_, fun g f => ?_⟩
  · rw [behavesValid_moveConstruct_snd]
    exact and_iff_right (sameEntries_with_cfg m {})
  · rw [moveAssign_snd, behavesValid_moveConstruct_snd]
    exact and_iff_right (sameEntries_with_cfg m t.cfg)
  · rw [MessageFrame.behavesValid_moveConstruct_snd]
    exact and_iff_right ⟨rfl, sameEntries_with_cfg f.parameters {}, rfl⟩
  · have hsnd : (MessageFrame.moveAssign g f).2 = (MessageFrame.moveConstruct f).2 := rfl
    rw [hsnd, MessageFrame.behavesValid_moveConstruct_snd]
    exact and_iff_right ⟨rfl, sameEntries_with_cfg f.parameters g.parameters.cfg, rfl⟩

/-- An empty container in vector mode can be used after a move. -/
theorem moves_leave_both_valid_empty :
    HybridMessageMap.BehavesValid Wire.codec (HybridMessageMap.moveConstruct
      (HybridMessageMap.ofConfig {} :
        HybridMessageMap (ListMap ParameterKey ParameterValue))).2 :=
  (((moves_leave_both_valid Wire.codec).1 _).mpr rfl).2

/-- A container that was primed for 129 entries cannot: asking it for its size dereferences a
null pointer. -/
theorem moves_leave_both_valid_fails :
    HybridMessageMap.construct { initialReserve := 129 } = .returned () (HybridMessageMap.ofConfig
      { initialReserve := 129 } : HybridMessageMap (ListMap ParameterKey ParameterValue)) ∧
    (HybridMessageMap.moveConstruct (HybridMessageMap.ofConfig { initialReserve := 129 } :
      HybridMessageMap (ListMap ParameterKey ParameterValue))).2.size =
        .error .nullDereference ∧
    ¬HybridMessageMap.BehavesValid Wire.codec (HybridMessageMap.moveConstruct
      (HybridMessageMap.ofConfig { initialReserve := 129 } :
        HybridMessageMap (ListMap ParameterKey ParameterValue))).2 := by
  have hhollow := HybridMessageMap.moveConstruct_snd_hollow
    (m := (HybridMessageMap.ofConfig { initialReserve := 129 } :
      HybridMessageMap (ListMap ParameterKey ParameterValue))) rfl
  exact ⟨HybridMessageMap.construct_eq _, hhollow.size_eq, hhollow.not_behavesValid _⟩

end MsgFrame
