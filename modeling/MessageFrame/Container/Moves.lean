import MessageFrame.Container.Uses
import MessageFrame.ForMathlib.ObjectStore
import MessageFrame.MessagePack.WireLawful

/-!
# Containers that are moved

The move operations copy the mode flag and move the storage it describes away. From a
container in vector mode that leaves an empty container in vector mode. From one in map mode
it leaves map mode without a map (`Hollow`): `size`, the lookups, the writers and `pack`
dereference the null pointer there, while `iterate`, which tests it, and `clear` and `unpack`,
which never read it, work.

A container that is moved from while it is hollow hands this state on to a container that has
*not* been moved from. `representation_invariant` is the mode/storage invariant for all
containers of a program, over runs in which no move does that.
-/

namespace MsgFrame

open Msgpack AssocList

namespace HybridMessageMap

variable {μ : Type} [UnorderedMap μ ParameterKey ParameterValue]

/-- Map mode without a map. -/
def Hollow (m : HybridMessageMap μ) : Prop := m.isVectorMode = false ∧ m.mapStorage = none

omit [UnorderedMap μ ParameterKey ParameterValue] in
theorem Hollow.eq {m : HybridMessageMap μ} (h : m.Hollow) :
    m = ⟨false, m.vectorStorage, m.cfg, none⟩ := by
  obtain ⟨mode, l, cfg, storage⟩ := m
  obtain ⟨rfl, rfl⟩ := h
  rfl

theorem Inv.not_hollow {m : HybridMessageMap μ} (h : m.Inv) : ¬m.Hollow := by
  cases h with
  | vector _ _ => exact fun hh => absurd hh.1 (by simp)
  | map => exact fun hh => absurd hh.2 (by simp)

/-! ### The two move operations -/

variable {m : HybridMessageMap μ}

/-- The storage that a move hands over satisfies the invariant in its new place. -/
theorem Inv.with_cfg (h : m.Inv) (config : FrameConfig) : { m with cfg := config }.Inv := by
  cases h with
  | vector hlen hspare => exact .vector hlen hspare
  | map => exact .map

omit [UnorderedMap μ ParameterKey ParameterValue] in
/-- Both operations leave the same behind. -/
theorem moveAssign_snd (this other : HybridMessageMap μ) :
    (moveAssign false this other).2 = (moveConstruct other).2 := rfl

/-- What is left of a container in vector mode is an empty container. -/
theorem moveConstruct_snd_inv (hmode : m.isVectorMode = true) : (moveConstruct m).2.Inv := by
  obtain ⟨mode, l, cfg, storage⟩ := m
  obtain rfl : mode = true := hmode
  exact .vector (Nat.zero_le _) fun _ h => by cases h

omit [UnorderedMap μ ParameterKey ParameterValue] in
/-- What is left of a container in map mode is hollow. -/
theorem moveConstruct_snd_hollow (hmode : m.isVectorMode = false) : (moveConstruct m).2.Hollow :=
  ⟨hmode, rfl⟩

/-- **What a move leaves behind** is valid exactly when the flag says vector mode. -/
theorem moveConstruct_snd_inv_iff : (moveConstruct m).2.Inv ↔ m.isVectorMode = true := by
  refine ⟨fun h => ?_, moveConstruct_snd_inv⟩
  by_contra hmode
  exact h.not_hollow (moveConstruct_snd_hollow (Bool.not_eq_true _ ▸ hmode))

/-! ### Calls on a hollow container -/

/-- On a hollow container every call of the parameter API but `clear` dereferences null. -/
theorem Hollow.exec_api (h : m.Hollow) (c : MapCall) :
    c.exec m = .undefined .nullDereference ∨ c.exec m = .returned .void (ofConfig m.cfg) := by
  rw [h.eq]
  cases c with
  | add device param val => cases val <;> exact .inl rfl
  | clear => exact .inr (Proc.bind_of_returned (clear_eq _) _)
  | _ => exact .inl rfl

/-- `size` of a hollow container dereferences null. -/
theorem Hollow.size_eq (h : m.Hollow) : m.size = .error .nullDereference := by
  rw [h.eq]
  rfl

variable [LawfulUnorderedMap μ]

/-- A call that gets through on a hollow container has left it alone or has repaired it. -/
theorem Hollow.exec (h : m.Hollow) (M : Codec) (c : ContainerCall) {m' : HybridMessageMap μ}
    (hexec : (∃ r, c.exec M m = .returned r m') ∨ c.exec M m = .threw m') :
    m' = m ∨ m'.Inv := by
  cases c with
  | api call =>
    rcases h.exec_api call with hfault | hclear
    · rw [ContainerCall.exec, Proc.bind_apply, hfault] at hexec
      rcases hexec with ⟨r, hr⟩ | hr <;> cases hr
    · rw [ContainerCall.exec, Proc.bind_of_returned hclear] at hexec
      rcases hexec with ⟨r, hr⟩ | hr
      · cases hr
        exact .inr (ofConfig_inv _)
      · cases hr
  | size =>
    rw [ContainerCall.exec, Proc.get_bind, h.size_eq] at hexec
    rcases hexec with ⟨r, hr⟩ | hr <;> cases hr
  | iterate =>
    rcases hexec with ⟨r, hr⟩ | hr
    · cases hr
      exact .inl rfl
    · cases hr
  | pack buffer =>
    have hpack : m.pack M = Proc.eval (.error .nullDereference) := by
      unfold pack
      rw [h.size_eq]
      rfl
    rw [ContainerCall.exec, Proc.get_bind, hpack] at hexec
    rcases hexec with ⟨r, hr⟩ | hr <;> cases hr
  | unpack obj =>
    obtain ⟨m₁, hunpack, hunpacked⟩ := unpack_spec M obj m
    rw [ContainerCall.exec] at hexec
    cases hconv : convertible M obj with
    | false =>
      rw [hconv, if_neg (by simp)] at hunpack
      rw [Proc.bind_of_threw hunpack] at hexec
      rcases hexec with ⟨r, hr⟩ | hr
      · cases hr
      · cases hr
        exact .inr hunpacked.inv
    | true =>
      rw [hconv, if_pos rfl] at hunpack
      rw [Proc.bind_of_returned hunpack] at hexec
      rcases hexec with ⟨r, hr⟩ | hr
      · cases hr
        exact .inr hunpacked.inv
      · cases hr

end HybridMessageMap

/-! ### The containers of a program -/

open HybridMessageMap ObjectType

variable {μ : Type} [UnorderedMap μ ParameterKey ParameterValue]

/-- The class `HybridMessageMap`. -/
def containerType (M : Codec) :
    ObjectType FrameConfig (HybridMessageMap μ) ContainerCall ContainerReply where
  construct := ofConfig
  exec := ContainerCall.exec M
  moveConstruct := moveConstruct
  moveAssign := moveAssign

variable [LawfulUnorderedMap μ]

/-- Every container of a program is valid, or moved from and hollow. -/
theorem inv_or_hollow (M : Codec) {as : List (Action FrameConfig ContainerCall)}
    {s : List (Cell (HybridMessageMap μ))}
    (hsources : (containerType M).Sources (fun m : HybridMessageMap μ => ¬m.Hollow) as [])
    (hrun : (containerType M).run as [] = .ok s) :
    ∀ cell ∈ s, cell.value.Inv ∨ (cell.movedFrom = true ∧ cell.value.Hollow) := by
  refine run_forall (T := containerType M) (A := fun m : HybridMessageMap μ => ¬m.Hollow)
    (I := fun cell => cell.value.Inv ∨ (cell.movedFrom = true ∧ cell.value.Hollow))
    (fun config => .inl (ofConfig_inv config)) ?_ ?_ ?_ (fun _ h => h) hsources hrun
    (fun _ h => by cases h)
  · rintro c cell v (hinv | ⟨hmoved, hhollow⟩) hexec
    · have hspec := c.exec_spec (μ := μ) M
      rcases hexec with ⟨r, hr⟩ | hr
      · exact .inl (hspec.returned hinv hr)
      · exact .inl (hspec.threw hinv hr)
    · -- a call that gets through on a hollow container, such as `clear` or `iterate`
      rcases hhollow.exec M c hexec with rfl | hinv
      · exact .inr ⟨hmoved, hhollow⟩
      · exact .inl hinv
  · rintro cell (hinv | ⟨-, hhollow⟩) hnot
    · refine ⟨.inl (hinv.with_cfg {}), ?_⟩
      cases hmode : cell.value.isVectorMode with
      | true => exact .inl (moveConstruct_snd_inv hmode)
      | false => exact .inr ⟨rfl, moveConstruct_snd_hollow hmode⟩
    · exact absurd hhollow hnot
  · rintro this other - (hinv | ⟨-, hhollow⟩) hnot
    · refine ⟨.inl (hinv.with_cfg this.value.cfg), ?_⟩
      cases hmode : other.value.isVectorMode with
      | true => exact .inl (moveConstruct_snd_inv hmode)
      | false => exact .inr ⟨rfl, moveConstruct_snd_hollow hmode⟩
    · exact absurd hhollow hnot

/-- **The mode/storage invariant of all containers.** In every run whose moves never take a
hollow container as their source, every container that has not been moved from satisfies the
invariant after each action: no call on it has undefined behaviour, and its size is the number
of entries that a traversal visits and that `pack` announces and packs. -/
theorem representation_invariant (M : Codec) (as : List (Action FrameConfig ContainerCall))
    (s : List (Cell (HybridMessageMap μ)))
    (hsources : (containerType M).Sources (fun m : HybridMessageMap μ => ¬m.Hollow) as [])
    (hrun : (containerType M).run as [] = .ok s) :
    ∀ cell ∈ s, cell.movedFrom = false →
      (cell.value.isVectorMode = false →
        cell.value.mapStorage ≠ none ∧ cell.value.vectorStorage = []) ∧
      (cell.value.isVectorMode = true → cell.value.vectorStorage.length ≤ smallCapacity ∧
        ∀ map, cell.value.mapStorage = some map → UnorderedMap.toList map = []) ∧
      (∀ (c : ContainerCall) (e : Fault), c.exec M cell.value ≠ .undefined e) ∧
      cell.value.size = .ok cell.value.visits.length ∧
      cell.value.visits = cell.value.entries.map visit ∧
      cell.value.pack M = (do
        write (M.packMap cell.value.entries.length.toUInt32)
        Proc.forEach (packEntry M) cell.value.entries) := by
  intro cell hcell hlive
  rcases inv_or_hollow M hsources hrun cell hcell with hinv | ⟨hmoved, -⟩
  · obtain ⟨hmap, hvec⟩ := inv_iff.mp hinv
    refine ⟨hmap, hvec, fun c e => (c.exec_spec M).ne_undefined hinv e, ?_, visits_eq _,
      pack_eq hinv M⟩
    rw [visits_eq, List.length_map, HybridMessageMap.size_eq hinv]
  · rw [hlive] at hmoved
    cases hmoved

/-- A container in map mode with one entry, moved into a new container. -/
theorem representation_invariant_moved :
    ∃ s : List (Cell (HybridMessageMap (ListMap ParameterKey ParameterValue))),
      (containerType Wire.codec).run [.construct { initialReserve := 129 },
        .call 0 (.api (.set [97] [98] (.lvalue .unknown))), .moveConstruct 0] [] = .ok s ∧
      ∀ cell ∈ s, cell.movedFrom = false → cell.value.size = .ok cell.value.visits.length := by
  refine ⟨_, rfl, fun cell hcell hlive => ?_⟩
  refine (representation_invariant Wire.codec [.construct { initialReserve := 129 },
    .call 0 (.api (.set [97] [98] (.lvalue .unknown))), .moveConstruct 0] _ ?_ rfl cell hcell
    hlive).2.2.2.1
  refine ⟨trivial, fun s₁ h₁ => ⟨trivial, fun s₂ h₂ => ⟨?_, fun _ _ => trivial⟩⟩⟩
  cases h₁
  cases h₂
  rintro cell hget ⟨-, hnone⟩
  cases hget
  cases hnone

/-- A container in map mode is moved from twice: the container made by the second move has not
been moved from, and is in map mode without a map. -/
theorem representation_invariant_fails :
    ∃ (s : List (Cell (HybridMessageMap (ListMap ParameterKey ParameterValue))))
      (cell : Cell (HybridMessageMap (ListMap ParameterKey ParameterValue))),
      (containerType Wire.codec).run [.construct { initialReserve := 129 }, .moveConstruct 0,
        .moveConstruct 0] [] = .ok s ∧
      cell ∈ s ∧ cell.movedFrom = false ∧ cell.value.isVectorMode = false ∧
      cell.value.mapStorage = none ∧ cell.value.size = .error .nullDereference :=
  ⟨_, ⟨⟨false, [], {}, none⟩, false⟩, rfl, List.mem_of_getElem? (i := 2) rfl, rfl, rfl, rfl, rfl⟩

end MsgFrame
