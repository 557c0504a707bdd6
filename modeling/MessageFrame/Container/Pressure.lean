import MessageFrame.Container.Reception
import MessageFrame.ForMathlib.Runs

/-!
# Whole runs under memory pressure

What an arbitrary pattern of failures of the storage allocations can do to a container over a whole
run. The memory for keys, values and lookups suffices, and the destructor of the decoder's local
value is left out.

* `valid_under_pressure_iff`: nothing but a conversion that runs out of memory, or a move, makes a
  valid container invalid; every other exception leaves a valid container.
* `survives_failures`: the container is still the finite map it stands for. A call that throws has
  not happened, so the replies are those of the finite map for the calls that returned.
* `unpack_repairs`: whatever has happened to a container, a received object makes it valid again.
-/

namespace MsgFrame

open Msgpack AssocList

variable {μ : Type} [UnorderedMap μ ParameterKey ParameterValue]

/-- What a call or a move asks of the memory or of the container to keep it valid: a conversion all
of its allocations, a move out of the container that it is in vector mode, and a move into it that
the other one is valid. -/
def MemoryCall.Sound (fails : ℕ → Bool) : MemoryCall μ → Memory μ → Prop
  | .api call, s => call.Converts s.container → Memory.ConversionSucceeds fails s
  | .moveAssign other, _ => other.container.Inv
  | .moveOut, s => s.container.isVectorMode = true
  | _, _ => True

theorem MapCall.eq_clear {c : MapCall} (h : c.op = .clear) : c = .clear := by
  cases c with
  | clear => rfl
  | _ => cases h

namespace Memory

variable {fails : ℕ → Bool} {s : Memory μ}

/-- What `clear` leaves is valid, returned or not. -/
private theorem execIn_clear_spec (fails : ℕ → Bool) :
    Proc.Spec (fun _ : Memory μ => True) (MapCall.clear.execIn fails)
      (fun _ s => s.container.Inv) fun s => s.container.Inv := by
  have hlazy : ∀ cfg : FrameConfig, ({ cfg := cfg } : HybridMessageMap μ).Inv :=
    fun cfg => .vector (Nat.zero_le _) nofun
  intro s _
  have hexec : MapCall.clear.execIn fails s =
      (clear fails >>= fun _ => (pure .void : Proc (Memory μ) Reply)) s := rfl
  rw [hexec]
  rcases clear_cases fails s with ⟨s', hclear, hcontainer, -⟩ | ⟨s', hclear, hcontainer⟩
  · rw [Proc.bind_of_returned hclear]
    change s'.container.Inv
    rcases hcontainer with h | h
    · rw [h]
      exact HybridMessageMap.ofConfig_inv _
    · rw [h]
      exact hlazy _
  · rw [Proc.bind_of_threw hclear]
    change s'.container.Inv
    rw [hcontainer]
    exact hlazy _

variable [LawfulUnorderedMap μ]

/-- A call whose conversion succeeds keeps the container valid. -/
private theorem execIn_inv (c : MapCall) :
    Proc.Spec (fun s : Memory μ => s.container.Inv ∧
        (c.Converts s.container → ConversionSucceeds fails s)) (c.execIn fails)
      (fun _ s => s.container.Inv) fun s => s.container.Inv := by
  rintro s ⟨h, hsound⟩
  by_cases hclear : c.op = .clear
  · rw [MapCall.eq_clear hclear]
    exact execIn_clear_spec fails s trivial
  · have hending := execIn_ending fails h c hclear
    generalize c.execIn fails s = out at hending
    cases hending with
    | done hconv hbase =>
      obtain ⟨r, m', hexec, heff⟩ := c.exec_spec h
      rw [hexec] at hbase
      obtain rfl := (Outcome.returned.inj hbase).2
      exact heff.inv h
    | @refused s' happend hconv hmode hroom hsame =>
      change s'.container.Inv
      rw [hsame]
      exact h
    | torn hconv hfails htorn => exact absurd (hsound hconv) hfails

/-- A call that starts a conversion which runs out of memory leaves an invalid container. -/
private theorem converts_of_inv {c : MapCall} (h : s.container.Inv) {s' : Memory μ}
    (hlead : Proc.Leads (c.execIn fails) s s') (h' : s'.container.Inv)
    (hconverts : c.Converts s.container) : ConversionSucceeds fails s := by
  by_cases hclear : c.op = .clear
  · obtain ⟨-, -, key, val, hop | ⟨hop, -⟩⟩ := hconverts
    · rw [hop] at hclear
      cases hclear
    · rw [hop] at hclear
      cases hclear
  · have hne : s.container.vectorStorage ≠ [] := by
      intro hnil
      have hfull := hconverts.2.1
      rw [hnil] at hfull
      exact absurd hfull (by decide)
    have hending := execIn_ending fails h c hclear
    rcases hlead with ⟨r, hexec⟩ | hexec
    · rw [hexec] at hending
      cases hending with
      | done hconv hbase => exact hconv hconverts
    · rw [hexec] at hending
      cases hending with
      | refused happend hconv hmode hroom hsame => exact absurd hconverts hconv
      | torn hconv hfails htorn => exact absurd h' (htorn.not_inv hne)

/-- What `unpack` leaves is valid, returned or not, from any state. -/
private theorem unpack_inv (fails : ℕ → Bool) (M : Codec) (obj : Object) :
    Proc.Spec (fun _ : Memory μ => True) (unpack fails M obj)
      (fun _ s => s.container.Inv) fun s => s.container.Inv := by
  intro s _
  have hending := unpack_ending fails M obj s
  generalize unpack fails M obj s = out at hending
  cases hending with
  | done hconv h => exact h.inv
  | stopped hpre h => exact h.inv

/-- **Validity under memory pressure.** Construct a container, call its functions, unpack into it
and move it around, whichever allocations of storage fail: it is valid in every state of the run
exactly if every conversion of the run gets all of its memory, moves out of the container happen in
vector mode only, and moves into it come from valid containers. The program ends with a `clear` that
throws; the container it leaves, and what could be done with it, are among the states all the
same. -/
theorem valid_under_pressure_iff (fails : ℕ → Bool) (M : Codec) {config : FrameConfig}
    {attempts : ℕ} {s₀ : Memory μ} (hconstruct : construct fails config attempts = .returned () s₀)
    (calls : List (MemoryCall μ)) :
    (∀ done, done <+: calls → ∃ rs s, Proc.execAll (MemoryCall.exec fails M) done s₀ =
        .ok (rs, s) ∧ s.container.Inv) ↔
      Proc.Along (MemoryCall.exec fails M) (MemoryCall.Sound fails) calls s₀ := by
  have h₀ : s₀.container.Inv := by
    rw [(construct_returned hconstruct).1]
    exact HybridMessageMap.ofConfig_inv config
  refine Proc.along_iff (I := fun s => s.container.Inv) (J := fun s => s.container.Inv)
    (fun _ h => h) ?_ ?_ h₀ (Proc.along_of_forall (fun _ _ => trivial) calls s₀)
  · rintro c s ⟨h, -, hsound⟩
    cases c with
    | api call => exact execIn_inv call s ⟨h, hsound⟩
    | unpack obj =>
      exact Proc.Spec.bind (unpack_inv fails M obj) (fun _ _ h => h) s trivial
    | moveConstruct => exact h.with_cfg {}
    | moveAssign other =>
      have hother : other.container.Inv := hsound
      exact hother.with_cfg s.container.cfg
    | moveOut => exact HybridMessageMap.moveConstruct_snd_inv hsound
  · intro c s s' h _ hlead h'
    cases c with
    | api call => exact converts_of_inv h hlead h'
    | unpack obj => trivial
    | moveConstruct => trivial
    | moveAssign other =>
      rcases hlead with ⟨r, hexec⟩ | hexec
      · cases hexec
        exact h'.with_cfg other.container.cfg
      · cases hexec
    | moveOut =>
      rcases hlead with ⟨r, hexec⟩ | hexec
      · cases hexec
        exact HybridMessageMap.moveConstruct_snd_inv_iff.mp h'
      · cases hexec

/-- When all memory is gone a container is still filled, received into, moved from and searched. -/
theorem valid_under_pressure_iff_moved :
    ∃ rs s, Proc.execAll (MemoryCall.exec (fun i => decide (1 ≤ i)) Wire.codec)
        [.api (.add [97] [98] (.lvalue .unknown)), .unpack (.map [(.str [97], .nil)]), .moveOut,
          .api (.find [97] [98])]
        (⟨{}, smallCapacity, 1⟩ : Memory (ListMap ParameterKey ParameterValue)) = .ok (rs, s) ∧
      s.container.Inv := by
  have hconstruct : construct (fun i => decide (1 ≤ i)) {} 0 =
      .returned () (⟨{}, smallCapacity, 1⟩ : Memory (ListMap ParameterKey ParameterValue)) := rfl
  refine (valid_under_pressure_iff _ Wire.codec hconstruct _).mpr ?_ _ (List.prefix_refl _)
  refine .cons (fun h => absurd h.2.1 (by decide)) (.inl ⟨_, rfl⟩) (.cons trivial (.inl ⟨_, rfl⟩)
    (.cons rfl (.inl ⟨_, rfl⟩) (.cons (fun h => ?_) (.inl ⟨_, rfl⟩) trivial)))
  obtain ⟨key, val, hop | ⟨hop, -⟩⟩ := h.2.2 <;> cases hop

/-! ### The finite map under memory pressure -/

/-- **One call** on a container that stands for a finite map: it does what the map does, or it is an
insertion that throws and has not happened. -/
theorem execIn_completes {fails : ℕ → Bool} {s : Memory μ}
    {f : PartialMap ByteString ParameterValue} (h : s.container.Refines f) (c : MapCall)
    (hsound : c.Converts s.container → ConversionSucceeds fails s)
    (hrecovers : c.op = .clear → Recovers fails s) :
    (∃ s', c.execIn fails s = .returned (c.step f).1 s' ∧ s'.container.Refines (c.step f).2) ∨
      ∃ s', c.execIn fails s = .threw s' ∧ s'.container.Refines f ∧ c.Appends s.container := by
  by_cases hclear : c.op = .clear
  · obtain rfl := MapCall.eq_clear hclear
    obtain ⟨s', hexec, hcleared⟩ := (clear_completes_iff fails s).mpr (hrecovers rfl)
    refine .inl ⟨s', Proc.bind_of_returned hexec _, hcleared.inv, fun key => ?_⟩
    rw [hcleared.empty, List.lookup_nil]
    rfl
  · have hending := execIn_ending fails h.inv c hclear
    obtain ⟨m', hexec, href⟩ := h.exec c
    cases hout : c.execIn fails s with
    | returned r s' =>
      rw [hout, hexec] at hending
      cases hending with
      | done hconv hbase =>
        obtain ⟨rfl, rfl⟩ := Outcome.returned.inj hbase
        exact .inl ⟨s', rfl, href⟩
    | threw s' =>
      rw [hout] at hending
      cases hending with
      | refused happend hconv hmode hroom hsame => exact .inr ⟨s', rfl, hsame ▸ h, happend⟩
      | torn hconv hfails htorn => exact absurd (hsound hconv) hfails
    | undefined e =>
      rw [hout] at hending
      cases hending

/-- **A container under memory pressure is still a finite map.** Start from any container that
stands for a finite map, and let any allocations of storage fail except those of its conversions and
the last resort of its `clear`s. A call that throws leaves the container standing for the same map,
and the calls that return reply, one after another, as the map replies to them alone. -/
theorem survives_failures (fails : ℕ → Bool) {s : Memory μ}
    {f : PartialMap ByteString ParameterValue} (h : s.container.Refines f) (calls : List MapCall)
    (hrun : Proc.Along (MapCall.execIn fails) (fun c s =>
      (c.Converts s.container → ConversionSucceeds fails s) ∧ (c.op = .clear → Recovers fails s))
      calls s) :
    ∃ rs s', Proc.execAll (MapCall.execIn fails) calls s = .ok (rs, s') ∧
      rs.reduceOption = (Proc.runMachine MapCall.step (Proc.completed calls rs) f).1 ∧
      s'.container.Refines (Proc.runMachine MapCall.step (Proc.completed calls rs) f).2 :=
  Proc.execAll_completes (R := fun s f => s.container.Refines f)
    (fun c _ _ h hsound => (execIn_completes h c hsound.1 hsound.2).imp_right
      fun ⟨s', hexec, href, _⟩ => ⟨s', hexec, href⟩) h hrun

/-- The vector cannot grow for the first insertion, and then it can. -/
theorem survives_failures_refused : ∃ s', Proc.execAll (MapCall.execIn fun i => i == 0)
      [.add [97] [98] (.lvalue (.int64 1)), .set [97] [98] (.rvalue (.int64 2)), .find [97] [98]]
      (⟨{}, 0, 0⟩ : Memory (ListMap ParameterKey ParameterValue)) =
        .ok ([none, some .void, some (.value (some (.int64 2)))], s') ∧
      s'.container.Refines (PartialMap.empty.upsert [97, 0x1F, 98] (.int64 2)) := by
  obtain ⟨rs, s', hexec, -, href⟩ := survives_failures (fun i => i == 0)
    (.ofConfig (μ := ListMap ParameterKey ParameterValue) {}) (s := ⟨{}, 0, 0⟩)
    [.add [97] [98] (.lvalue (.int64 1)), .set [97] [98] (.rvalue (.int64 2)), .find [97] [98]]
    (.cons ⟨fun h => absurd h.2.1 (by decide), nofun⟩ (.inr rfl)
      (.cons ⟨fun h => absurd h.2.1 (by decide), nofun⟩ (.inl ⟨_, rfl⟩)
      (.cons ⟨fun h => absurd h.2.1 (by decide), nofun⟩ (.inl ⟨_, rfl⟩) trivial)))
  cases hexec
  exact ⟨_, rfl, href⟩

/-- A container that holds the entries of a list stands for their first values. -/
theorem Contains.refines {cfg : FrameConfig} {m : HybridMessageMap μ}
    {es : List (ParameterKey × ParameterValue)} (h : Contains cfg es m) :
    m.Refines fun key => es.lookup ⟨key⟩ := by
  refine ⟨h.inv, fun key => ?_⟩
  rcases h.entries with he | ⟨hmode, hperm⟩
  · rw [he]
  · rw [lookup_eq_of_perm hperm (HybridMessageMap.nodup_keys_of_map_mode h.inv hmode),
      lookup_firsts]

theorem Contains.findView {cfg : FrameConfig} {m : HybridMessageMap μ}
    {es : List (ParameterKey × ParameterValue)} (h : Contains cfg es m) (keyView : ByteString) :
    m.findView keyView = .ok (es.lookup ⟨keyView⟩) := by
  rw [HybridMessageMap.findView_eq h.inv, h.refines.lookup]

/-- **A received object repairs a container**, whatever has happened to it: it may be torn, moved
from, or in any other state, and any allocations of storage may fail. `unpack` has no undefined
behaviour, its local value apart, and leaves a valid container. When it returns, every key is found
with the first value received for it; when it throws, with the first value among the entries that
were received before. These are none where its `clear` cannot recover, and the program ends with the
exception. -/
theorem unpack_repairs (fails : ℕ → Bool) (M : Codec) (obj : Object) (s : Memory μ) :
    ∃ (s' : Memory μ) (es : List (ParameterKey × ParameterValue)),
      (unpack fails M obj s = .returned () s' ∧ HybridMessageMap.convertible M obj = true ∧
          es = HybridMessageMap.received M obj ∨
        unpack fails M obj s = .threw s' ∧ es <+: HybridMessageMap.received M obj) ∧
      s'.container.Inv ∧ s'.container.cfg = s.container.cfg ∧
      (∀ keyView, s'.container.findView keyView = .ok (es.lookup ⟨keyView⟩)) ∧
      (¬Recovers fails s → unpack fails M obj s = .threw s' ∧ es = []) := by
  by_cases hrecovers : Recovers fails s
  · have hending := unpack_ending fails M obj s
    cases hout : unpack fails M obj s with
    | returned a s' =>
      rw [hout] at hending
      cases hending with
      | done hconv h =>
        exact ⟨s', _, .inl ⟨rfl, hconv, rfl⟩, h.inv, h.cfg, h.findView, absurd hrecovers⟩
    | threw s' =>
      rw [hout] at hending
      cases hending with
      | stopped hpre h =>
        exact ⟨s', _, .inr ⟨rfl, hpre⟩, h.inv, h.cfg, h.findView, absurd hrecovers⟩
    | undefined e =>
      rw [hout] at hending
      cases hending
  · rcases clear_cases fails s with ⟨s', hclear, hcontainer, hroom⟩ | ⟨s', hclear, hcontainer⟩
    · exact absurd ((clear_completes_iff fails s).mp ⟨s', hclear, .of_storage hcontainer hroom⟩)
        hrecovers
    · have hunpack : unpack fails M obj s = .threw s' := Proc.bind_of_threw hclear _
      have hnil : Contains s.container.cfg [] s'.container := by
        rw [hcontainer]
        exact ⟨.vector (Nat.zero_le _) nofun, rfl, .inl rfl⟩
      exact ⟨s', [], .inr ⟨hunpack, List.nil_prefix⟩, hnil.inv, hnil.cfg, hnil.findView,
        fun _ => ⟨hunpack, rfl⟩⟩

/-- A container that a failed conversion has torn, whose vector still has its buffer. -/
theorem unpack_repairs_torn : ∃ s' : Memory (ListMap ParameterKey ParameterValue),
    unpack (fun _ => true) Wire.codec (.map [(.str [97], .boolean true)])
      ⟨{ isVectorMode := false, vectorStorage := [(⟨[98]⟩, .unknown)] }, smallCapacity, 3⟩ =
        .returned () s' ∧
    s'.container.findView [97] = .ok (some .unknown) := by
  obtain ⟨s', es, hunpack, -, -, hfind, -⟩ :=
    unpack_repairs (fun _ => true) Wire.codec (.map [(.str [97], .boolean true)])
      (⟨{ isVectorMode := false, vectorStorage := [(⟨[98]⟩, .unknown)] }, smallCapacity, 3⟩ :
        Memory (ListMap ParameterKey ParameterValue))
  rcases hunpack with ⟨hunpack, -, rfl⟩ | ⟨hunpack, -⟩
  · exact ⟨s', hunpack, hfind [97]⟩
  · cases hunpack

end Memory

end MsgFrame
