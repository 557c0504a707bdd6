import MessageFrame.Frame.Calls
import MessageFrame.MessagePack.Wire

/-!
# The sizing hint over whole runs

`clear` applies the sizing hint of the object again, and no call of the API changes it: not a
conversion, not `unpack`, which chooses its storage by the number of pairs. A move construction
does: the configuration is not among the members that the hand-written constructor moves, so the
new object, which carries on the run, has the default one. From then on `clear` goes to vector
mode.

A run is a list of steps on one object, a container or a frame (`HintStep`), and the configuration
the object carries follows the steps (`HintStep.hint`). `hint_governs_clear_iff` is what becomes
of the hint.
-/

namespace MsgFrame

open Msgpack AssocList

/-- A step of a run: a call on the object, or the construction of a new object from it, which
takes its place. -/
inductive HintStep (κ : Type) where
  | call (c : κ)
  | moveConstruct

namespace HintStep

variable {σ κ ρ : Type}

/-- Execute a step. -/
def exec (exec : κ → Proc σ ρ) (move : σ → σ) : HintStep κ → Proc σ (Option ρ)
  | .call c => do
    let r ← exec c
    pure (some r)
  | .moveConstruct => do
    Proc.modify move
    pure none

/-- The configuration that the object carries after a step. -/
def hint (config : FrameConfig) : HintStep κ → FrameConfig
  | .call _ => config
  | .moveConstruct => {}

theorem foldl_hint_of_notMem {steps : List (HintStep κ)} (h : .moveConstruct ∉ steps)
    (config : FrameConfig) : steps.foldl hint config = config := by
  induction steps with
  | nil => rfl
  | cons step steps ih =>
    rw [List.mem_cons, not_or] at h
    cases step with
    | call c => exact ih h.2
    | moveConstruct => exact absurd rfl h.1

theorem foldl_hint_of_mem {steps : List (HintStep κ)} (h : .moveConstruct ∈ steps)
    (config : FrameConfig) : steps.foldl hint config = {} := by
  have hdefault : ∀ steps : List (HintStep κ), steps.foldl hint {} = {} := by
    intro steps
    induction steps with
    | nil => rfl
    | cons step steps ih => cases step <;> exact ih
  induction steps generalizing config with
  | nil => exact absurd h List.not_mem_nil
  | cons step steps ih =>
    cases step with
    | call c => exact ih ((List.mem_cons.mp h).resolve_left fun h => by cases h) config
    | moveConstruct => exact hdefault steps

end HintStep

/-! ### Objects with a container -/

variable {μ : Type} [UnorderedMap μ ParameterKey ParameterValue]

/-- The container of the object is valid and carries the configuration. -/
def Carries {σ : Type} (container : σ → HybridMessageMap μ) (config : FrameConfig) (s : σ) :
    Prop :=
  (container s).Inv ∧ (container s).cfg = config

/-- Directly after every `clear` of the run, the container is empty, and is in map mode exactly
if the configuration hints at more entries than the vector takes. -/
def HintGoverns {σ κ ρ : Type} (exec : κ → Proc σ ρ) (move : σ → σ)
    (container : σ → HybridMessageMap μ) (clears : κ → Prop) (config : FrameConfig) (s : σ)
    (steps : List (HintStep κ)) : Prop :=
  ∀ done c, clears c → done ++ [.call c] <+: steps →
    ∃ rs s', Proc.execAll (HintStep.exec exec move) (done ++ [.call c]) s = .ok (rs, s') ∧
      (container s').size = .ok 0 ∧ (container s').visits = [] ∧
      ((container s').isVectorMode = false ↔ smallCapacity < config.initialReserve)

/-- No `clear` of the run comes after a move construction. -/
def ClearsUnmoved {κ : Type} (clears : κ → Prop) (steps : List (HintStep κ)) : Prop :=
  ∀ done c, clears c → done ++ [.call c] <+: steps → .moveConstruct ∉ done

variable [LawfulUnorderedMap μ]

/-- What becomes of the hint, for an object with a container that its calls keep valid and that
its moves construct from the container of the source. -/
private theorem hintGoverns_iff {σ κ ρ : Type} {exec : κ → Proc σ ρ} {move : σ → σ}
    {container : σ → HybridMessageMap μ} {clears : κ → Prop}
    (hcall : ∀ c config, Proc.Spec (Carries container config) (exec c)
      (fun _ => Carries container config) (Carries container config))
    (hmove : ∀ s, container (move s) = (HybridMessageMap.moveConstruct (container s)).1)
    (hclear : ∀ c, clears c → ∀ s, ∃ r s', exec c s = .returned r s' ∧
      container s' = HybridMessageMap.ofConfig (container s).cfg)
    {config : FrameConfig} {s : σ} (hs : Carries container config s)
    (steps : List (HintStep κ)) :
    HintGoverns exec move container clears config s steps ↔
      config.initialReserve ≤ smallCapacity ∨ ClearsUnmoved clears steps := by
  have hstep : ∀ step config, Proc.Spec (Carries container config)
      (HintStep.exec exec move step) (fun _ => Carries container (HintStep.hint config step))
      (Carries container (HintStep.hint config step)) := by
    intro step config
    cases step with
    | call c => exact (hcall c config).bind fun _ _ h => h
    | moveConstruct =>
      intro s hs
      have hmoved : container (move s) = { container s with cfg := {} } := hmove s
      refine ⟨?_, ?_⟩
      · rw [hmoved]
        exact hs.1.with_cfg {}
      · rw [hmoved]
        rfl
  -- the state after a `clear`, in terms of the steps before it
  have hafter : ∀ done c, clears c →
      ∃ rs s', Proc.execAll (HintStep.exec exec move) (done ++ [.call c]) s = .ok (rs, s') ∧
        container s' = HybridMessageMap.ofConfig (done.foldl HintStep.hint config) := by
    intro done c hc
    obtain ⟨rs, s₁, hexec, -, hcfg⟩ := Proc.execAll_follows hstep done hs
    obtain ⟨r, s', hclear', hcontainer⟩ := hclear c hc s₁
    have hlast : HintStep.exec exec move (.call c) s₁ = .returned (some r) s' :=
      Proc.bind_of_returned hclear' _
    exact ⟨_, s', Proc.execAll_append_singleton hexec hlast, by rw [hcontainer, hcfg]⟩
  constructor
  · intro hgoverns
    by_contra hnot
    obtain ⟨hlarge, hmoved⟩ := not_or.mp hnot
    refine hmoved fun done c hc hpre hmem => ?_
    obtain ⟨rs, s', hexec, -, -, hmode⟩ := hgoverns done c hc hpre
    obtain ⟨rs₁, s₁, hexec', hcontainer⟩ := hafter done c hc
    obtain ⟨-, rfl⟩ := Prod.mk.inj (Except.ok.inj (hexec.symm.trans hexec'))
    have hmap := hmode.mpr (Nat.lt_of_not_le hlarge)
    rw [hcontainer, HintStep.foldl_hint_of_mem hmem] at hmap
    cases hmap
  · intro hcond done c hc hpre
    obtain ⟨rs, s', hexec, hcontainer⟩ := hafter done c hc
    have hempty : (container s').entries = [] := by
      rw [hcontainer]
      exact HybridMessageMap.entries_ofConfig _
    refine ⟨rs, s', hexec, ?_, ?_, ?_⟩
    · rw [hcontainer, HybridMessageMap.size_eq (HybridMessageMap.ofConfig_inv _),
        HybridMessageMap.entries_ofConfig]
      rfl
    · rw [HybridMessageMap.visits_eq, hempty]
      rfl
    · rw [hcontainer, HybridMessageMap.isVectorMode_ofConfig, decide_eq_false_iff_not, not_le]
      by_cases hmem : .moveConstruct ∈ done
      · -- the hint is lost, which shows only if it asked for a map
        have hsmall := hcond.resolve_right fun hunmoved => hunmoved done c hc hpre hmem
        rw [HintStep.foldl_hint_of_mem hmem]
        exact iff_of_false (by decide) (Nat.not_lt.mpr hsmall)
      · rw [HintStep.foldl_hint_of_notMem hmem]

/-! ### Containers and frames -/

/-- No call on a container touches its configuration. -/
theorem ContainerCall.exec_carries (M : Codec) (c : ContainerCall) (config : FrameConfig) :
    Proc.Spec (Carries (μ := μ) id config) (c.exec M) (fun _ => Carries id config)
      (Carries id config) := by
  intro m hm
  have hinv : m.Inv := hm.1
  have hcfg : m.cfg = config := hm.2
  cases c with
  | api call =>
    obtain ⟨r, m', hexec, heff⟩ := call.exec_spec hinv
    rw [ContainerCall.exec, Proc.bind_of_returned hexec]
    exact ⟨heff.inv hinv, heff.cfg_eq.trans hcfg⟩
  | size =>
    have hsize : HybridMessageMap.size m = .ok m.entries.length := HybridMessageMap.size_eq hinv
    rw [ContainerCall.exec, Proc.get_bind, hsize]
    exact ⟨hinv, hcfg⟩
  | iterate => exact ⟨hinv, hcfg⟩
  | pack buffer =>
    rw [ContainerCall.exec, Proc.get_bind]
    exact packInto_spec (HybridMessageMap.pack_defined hinv M) buffer m ⟨hinv, hcfg⟩
  | unpack obj =>
    obtain ⟨m', hexec, hunpacked⟩ := HybridMessageMap.unpack_spec M obj m
    have hcarries : Carries id config m' := ⟨hunpacked.inv, hunpacked.cfg.trans hcfg⟩
    rw [ContainerCall.exec]
    cases hconv : HybridMessageMap.convertible M obj with
    | true =>
      rw [hconv, if_pos rfl] at hexec
      rw [Proc.bind_of_returned hexec]
      exact hcarries
    | false =>
      rw [hconv, if_neg (by simp)] at hexec
      rw [Proc.bind_of_threw hexec]
      exact hcarries

namespace MessageFrame

omit [LawfulUnorderedMap μ] in
theorem FrameEffect.cfg_eq {M : Codec} {f f' : MessageFrame μ} {c : FrameCall} {r : Reply}
    (he : FrameEffect M f c r f') : f'.parameters.cfg = f.parameters.cfg := by
  cases he with
  | parameters heff => exact heff.cfg_eq
  | header _ => rfl
  | addAttachment _ _ => rfl
  | clear => exact HybridMessageMap.cfg_ofConfig _
  | deserialize hd =>
    cases hd with
    | rejected _ => rfl
    | header _ _ => rfl
    | parameters _ _ _ hu => exact hu.cfg
    | attachments _ _ _ hu => exact hu.cfg

end MessageFrame

/-- No call on a frame touches the configuration of its container. -/
theorem FrameCall.exec_carries (M : Codec) (c : FrameCall) (config : FrameConfig) :
    Proc.Spec (Carries (μ := μ) MessageFrame.parameters config) (c.exec M)
      (fun _ => Carries MessageFrame.parameters config)
      (Carries MessageFrame.parameters config) := by
  refine Proc.Spec.of_returned ?_
  rintro f ⟨hinv, hcfg⟩
  obtain ⟨r, f', hexec, heff⟩ := c.exec_spec M hinv
  exact ⟨r, f', hexec, heff.inv hinv, heff.cfg_eq.trans hcfg⟩

/-- The calls that clear the container of a frame. -/
def FrameCall.Clears (c : FrameCall) : Prop := c = .clear ∨ c = .parameters .clear

/-- **What becomes of the sizing hint.** In every run of calls and move constructions that starts
from a container, or from a frame, constructed with a configuration, the hint governs every
`clear` exactly if it does not ask for map mode, or no `clear` comes after a move construction. -/
theorem hint_governs_clear_iff (M : Codec) (config : FrameConfig) :
    (∀ steps : List (HintStep ContainerCall),
      HintGoverns (ContainerCall.exec M) (fun m => (HybridMessageMap.moveConstruct m).1) id
          (· = .api .clear) config (HybridMessageMap.ofConfig config : HybridMessageMap μ) steps ↔
        config.initialReserve ≤ smallCapacity ∨ ClearsUnmoved (· = .api .clear) steps) ∧
    ∀ (header : MessageHeader) (steps : List (HintStep FrameCall)),
      HintGoverns (FrameCall.exec M) (fun f => (MessageFrame.moveConstruct f).1)
          MessageFrame.parameters FrameCall.Clears config
          (MessageFrame.construct header config : MessageFrame μ) steps ↔
        config.initialReserve ≤ smallCapacity ∨ ClearsUnmoved FrameCall.Clears steps := by
  have hnew : (HybridMessageMap.ofConfig config : HybridMessageMap μ).Inv ∧
      (HybridMessageMap.ofConfig config : HybridMessageMap μ).cfg = config :=
    ⟨HybridMessageMap.ofConfig_inv config, HybridMessageMap.cfg_ofConfig config⟩
  constructor
  · refine fun steps => hintGoverns_iff (ContainerCall.exec_carries M) (fun _ => rfl) ?_ hnew steps
    rintro c rfl m
    have hclear : MapCall.exec .clear m =
        .returned .void (HybridMessageMap.ofConfig m.cfg) :=
      Proc.bind_of_returned (HybridMessageMap.clear_eq m) _
    exact ⟨_, _, Proc.bind_of_returned hclear _, rfl⟩
  · intro header steps
    refine hintGoverns_iff (FrameCall.exec_carries M) (fun _ => rfl) ?_
      (s := MessageFrame.construct header config) hnew steps
    rintro c (rfl | rfl) f
    · have hclear : MessageFrame.clear f = .returned ()
          { f with
            parameters := HybridMessageMap.ofConfig f.parameters.cfg
            attachments := [] } :=
        Proc.bind_of_returned (Proc.onField_of_returned
          (HybridMessageMap.clear_eq f.parameters)) _
      exact ⟨_, _, Proc.bind_of_returned hclear _, rfl⟩
    · have hclear : MapCall.exec .clear f.parameters =
          .returned .void (HybridMessageMap.ofConfig f.parameters.cfg) :=
        Proc.bind_of_returned (HybridMessageMap.clear_eq f.parameters) _
      have honParams : MessageFrame.onParameters (MapCall.exec .clear) f = .returned .void
          { f with parameters := HybridMessageMap.ofConfig f.parameters.cfg } :=
        Proc.onField_of_returned hclear
      exact ⟨_, _, honParams, rfl⟩

/-- A hint that vector mode satisfies is not missed after a move. -/
theorem hint_governs_clear_iff_small :
    HintGoverns (ContainerCall.exec Wire.codec) (fun m => (HybridMessageMap.moveConstruct m).1) id
      (· = .api .clear) { initialReserve := 128 }
      (HybridMessageMap.ofConfig { initialReserve := 128 } :
        HybridMessageMap (ListMap ParameterKey ParameterValue))
      [.moveConstruct, .call (.api .clear)] :=
  ((hint_governs_clear_iff Wire.codec { initialReserve := 128 }).1 _).mpr (.inl (by decide))

/-- A container constructed with the hint 129 is moved into a new one, which is then cleared: it
is in vector mode. -/
theorem hint_governs_clear_fails :
    ∃ (rs : List (Option (Option ContainerReply)))
      (m : HybridMessageMap (ListMap ParameterKey ParameterValue)),
      Proc.execAll (HintStep.exec (ContainerCall.exec Wire.codec)
        (fun m => (HybridMessageMap.moveConstruct m).1)) [.moveConstruct, .call (.api .clear)]
        (HybridMessageMap.ofConfig { initialReserve := 129 }) = .ok (rs, m) ∧
      m.isVectorMode = true :=
  ⟨_, _, rfl, rfl⟩

end MsgFrame
