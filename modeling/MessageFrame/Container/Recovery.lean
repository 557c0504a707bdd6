import MessageFrame.Container.Ample
import MessageFrame.MessagePack.Wire

/-!
# `clear` out of memory

`clear` catches the exception of `prime_storage` and falls back to vector mode, for which it
reserves room in the vector again. That is an allocation of its own, unless the vector still has
its room: it keeps it over a `clear`, but it never had it in a container that was constructed in
map mode, and lost it in a conversion or a move. So the fall-back needs memory directly after an
allocation has failed (`Recovers`), and `clear_completes_iff` says that nothing else stands in the
way of `clear`. `clears_complete_iff` is the same for all the `clear`s of a run.
-/

namespace MsgFrame

open Msgpack AssocList

/-- The call executes `clear` in the state in which it is made. -/
def MemoryCall.Clears {μ : Type} : MemoryCall μ → Prop
  | .api .clear => True
  | .unpack _ => True
  | _ => False

namespace Memory

variable {μ : Type} [UnorderedMap μ ParameterKey ParameterValue]

/-- The allocations of `prime_storage` when the vector has no room. -/
def primingAllocations (config : FrameConfig) : ℕ :=
  if smallCapacity < config.initialReserve then 2 else 1

/-- The vector has room, or the allocation that follows the first one of the priming to fail
succeeds. -/
def Recovers (fails : ℕ → Bool) (s : Memory μ) : Prop :=
  smallCapacity ≤ s.capacity ∨ ∀ i < primingAllocations s.container.cfg,
    (∀ j < i, fails (s.attempts + j) = false) → fails (s.attempts + i) = true →
      fails (s.attempts + i + 1) = false

/-- What `clear` is to leave: an empty container in a valid state, primed as its hint asks or in
vector mode with room in the vector, that works as an empty finite map from then on. -/
structure Cleared (s s' : Memory μ) : Prop where
  storage : s'.container = .ofConfig s.container.cfg ∨ s'.container = { cfg := s.container.cfg }
  room : s'.container.isVectorMode = true → smallCapacity ≤ s'.capacity
  inv : s'.container.Inv
  empty : s'.container.entries = []
  works (calls : List MapCall) : ∃ s'', Proc.execAll (MapCall.execIn ample) calls s' =
    .ok ((Proc.runMachine MapCall.step calls PartialMap.empty).1.map some, s'')

/-- `clear` returns, to a container as it is to leave. -/
def ClearCompletes (fails : ℕ → Bool) (s : Memory μ) : Prop :=
  ∃ s', clear fails s = .returned () s' ∧ Cleared s s'

/-! ### Priming and falling back -/

/-- The container as it is primed by `clear`. -/
def reset (s : Memory μ) : Memory μ := { s with container := { cfg := s.container.cfg } }

variable {fails : ℕ → Bool}

theorem clear_eq (s : Memory μ) :
    clear fails s = Proc.tryCatch (primeStorage fails) (fallBack fails) s.reset := rfl

/-- Priming for vector mode reserves room in the vector. -/
private theorem primeStorage_of_small (fails : ℕ → Bool) {s : Memory μ}
    (h : ¬smallCapacity < s.container.cfg.initialReserve) :
    primeStorage fails s.reset = reserveVector fails smallCapacity s.reset := by
  unfold primeStorage
  rw [Proc.get_bind, if_neg (show ¬smallCapacity < s.reset.container.cfg.initialReserve from h)]
  rfl

/-- Priming for map mode creates the map and allocates its buckets. -/
private theorem primeStorage_of_large (fails : ℕ → Bool) {s : Memory μ}
    (h : smallCapacity < s.container.cfg.initialReserve) :
    primeStorage fails s.reset =
      if fails s.attempts then
        .threw ⟨⟨false, [], s.container.cfg, none⟩, s.capacity, s.attempts + 1⟩
      else if fails (s.attempts + 1) then
        .threw ⟨⟨false, [], s.container.cfg, some UnorderedMap.empty⟩, s.capacity,
          s.attempts + 1 + 1⟩
      else .returned () ⟨.ofConfig s.container.cfg, s.capacity, s.attempts + 1 + 1⟩ := by
  have hlarge : smallCapacity < s.reset.container.cfg.initialReserve := h
  have hconfig : (.ofConfig s.container.cfg : HybridMessageMap μ) =
      ⟨false, [], s.container.cfg, some (UnorderedMap.reserve UnorderedMap.empty
        s.container.cfg.initialReserve)⟩ := if_pos h
  have hmap := ensureMap_eq fails
    (⟨⟨false, [], s.container.cfg, none⟩, s.capacity, s.attempts⟩ : Memory μ)
  have hbuckets := reserveMap_eq fails s.container.cfg.initialReserve
    (⟨⟨false, [], s.container.cfg, some UnorderedMap.empty⟩, s.capacity, s.attempts + 1⟩ :
      Memory μ) rfl
  unfold primeStorage
  rw [Proc.get_bind, if_pos hlarge, hconfig]
  cases hf : fails s.attempts with
  | true =>
    simp only [hf, if_true] at hmap
    exact Proc.bind_of_threw hmap _
  | false =>
    simp only [hf, Bool.false_eq_true, if_false] at hmap
    exact (Proc.bind_of_returned hmap _).trans hbuckets

/-- **Priming** succeeds, or throws at the first of its allocations that fails. -/
theorem primeStorage_cases (fails : ℕ → Bool) (s : Memory μ) :
    (∃ s', primeStorage fails s.reset = .returned () s' ∧
      s'.container = .ofConfig s.container.cfg ∧
      (s'.container.isVectorMode = true → smallCapacity ≤ s'.capacity) ∧
      (smallCapacity ≤ s.capacity ∨ ∀ i < primingAllocations s.container.cfg,
        fails (s.attempts + i) = false)) ∨
    ∃ i < primingAllocations s.container.cfg, (∀ j < i, fails (s.attempts + j) = false) ∧
      fails (s.attempts + i) = true ∧
      ∃ m, primeStorage fails s.reset = .threw ⟨m, s.capacity, s.attempts + i + 1⟩ ∧
        m.vectorStorage = [] ∧ m.cfg = s.container.cfg := by
  by_cases hlarge : smallCapacity < s.container.cfg.initialReserve
  · have hn : primingAllocations s.container.cfg = 2 := if_pos hlarge
    have hprime := primeStorage_of_large fails hlarge
    have hmode : (.ofConfig s.container.cfg : HybridMessageMap μ).isVectorMode = false := by
      rw [HybridMessageMap.isVectorMode_ofConfig]
      exact decide_eq_false (Nat.not_le.mpr hlarge)
    rw [hn, hprime]
    split_ifs with hmap hbuckets
    · exact .inr ⟨0, by omega, fun j hj => absurd hj (Nat.not_lt_zero j), hmap, _, rfl, rfl, rfl⟩
    · refine .inr ⟨1, by omega, fun j hj => ?_, hbuckets, _, rfl, rfl, rfl⟩
      obtain rfl : j = 0 := by omega
      exact Bool.not_eq_true _ ▸ hmap
    · refine .inl ⟨_, rfl, rfl, fun h => absurd (h.symm.trans hmode) (by simp), .inr fun i hi => ?_⟩
      obtain rfl | rfl : i = 0 ∨ i = 1 := by omega
      · exact Bool.not_eq_true _ ▸ hmap
      · exact Bool.not_eq_true _ ▸ hbuckets
  · have hn : primingAllocations s.container.cfg = 1 := if_neg hlarge
    have hconfig : (.ofConfig s.container.cfg : HybridMessageMap μ) =
        { cfg := s.container.cfg } := if_neg hlarge
    rw [hn, primeStorage_of_small fails hlarge, reserveVector_eq, hconfig]
    split_ifs with hroom hfail
    · exact .inl ⟨_, rfl, rfl, fun _ => hroom, .inl hroom⟩
    · exact .inr ⟨0, by omega, fun j hj => absurd hj (Nat.not_lt_zero j), hfail, _, rfl, rfl, rfl⟩
    · refine .inl ⟨_, rfl, rfl, fun _ => le_rfl, .inr fun i hi => ?_⟩
      obtain rfl : i = 0 := by omega
      exact Bool.not_eq_true _ ▸ hfail

/-- **A container that could be constructed** is the one that is constructed with ample memory,
with room in the vector if it is in vector mode. -/
theorem construct_returned {config : FrameConfig} {attempts : ℕ} {s : Memory μ}
    (h : construct fails config attempts = .returned () s) :
    s.container = .ofConfig config ∧
      (s.container.isVectorMode = true → smallCapacity ≤ s.capacity) := by
  have hprime : primeStorage fails (reset ⟨{ cfg := config }, 0, attempts⟩) = .returned () s := h
  rcases primeStorage_cases fails (⟨{ cfg := config }, 0, attempts⟩ : Memory μ) with
    ⟨s', hprime', hcontainer, hroom, -⟩ | ⟨i, -, -, -, m, hprime', -, -⟩
  · rw [hprime] at hprime'
    obtain rfl : s = s' := (Outcome.returned.inj hprime').2
    exact ⟨hcontainer, hroom⟩
  · rw [hprime] at hprime'
    cases hprime'

omit [UnorderedMap μ ParameterKey ParameterValue] in
theorem fallBack_eq {t : Memory μ} (h : t.container.vectorStorage = []) :
    fallBack fails t = reserveVector fails smallCapacity t.reset := by
  obtain ⟨⟨mode, l, cfg, storage⟩, capacity, attempts⟩ := t
  obtain rfl : l = [] := h
  rfl

variable [LawfulUnorderedMap μ]

/-- A container with nothing in its storage is cleared. -/
theorem Cleared.of_storage {s s' : Memory μ}
    (h : s'.container = .ofConfig s.container.cfg ∨ s'.container = { cfg := s.container.cfg })
    (hroom : s'.container.isVectorMode = true → smallCapacity ≤ s'.capacity) : Cleared s s' := by
  have href : s'.container.Refines PartialMap.empty := by
    rcases h with h | h
    · rw [h]
      exact .ofConfig _
    · rw [h]
      exact ⟨.vector (Nat.zero_le _) (fun _ hmap => by cases hmap), fun _ => rfl⟩
  have hempty : s'.container.entries = [] := by
    rcases h with h | h
    · rw [h, HybridMessageMap.entries_ofConfig]
    · rw [h]
      rfl
  exact ⟨h, hroom, href.inv, hempty, fun calls =>
    let ⟨s'', hexec, _⟩ := execAll_of_refines href calls
    ⟨s'', hexec⟩⟩

/-- **`clear` under memory pressure**, in any state of the container: it completes exactly if the
fall-back does not need memory, or finds it. -/
theorem clear_completes_iff (fails : ℕ → Bool) (s : Memory μ) :
    ClearCompletes fails s ↔ Recovers fails s := by
  unfold ClearCompletes
  rw [clear_eq]
  rcases primeStorage_cases fails s with ⟨s', hprime, hcontainer, hroom, hnone⟩ |
    ⟨i, hi, hbefore, hfail, m, hprime, hvector, hcfg⟩
  · rw [Proc.tryCatch_of_returned hprime]
    refine iff_of_true ⟨s', rfl, .of_storage (.inl hcontainer) hroom⟩ ?_
    refine hnone.imp_right fun hnone k hk _ hfail => ?_
    rw [hnone k hk] at hfail
    cases hfail
  · rw [Proc.tryCatch_of_threw hprime, fallBack_eq hvector, reserveVector_eq]
    split_ifs with hroom hagain
    · exact iff_of_true ⟨_, rfl, .of_storage (.inr (by simp [reset, hcfg])) fun _ => hroom⟩
        (.inl hroom)
    · -- the second failure in a row leaves `clear`
      refine iff_of_false (fun ⟨s', h, _⟩ => by cases h) fun hrecovers => ?_
      rcases hrecovers with hroom' | hrecovers
      · exact hroom hroom'
      · have hok := hrecovers i hi hbefore hfail
        exact absurd (hok.symm.trans hagain) Bool.false_ne_true
    · refine iff_of_true ⟨_, rfl, .of_storage (.inr (by simp [reset, hcfg])) fun _ => le_rfl⟩
        (.inr fun k hk hbefore' hfail' => ?_)
      -- the first failure is the one that was met
      obtain rfl : k = i := by
        rcases Nat.lt_trichotomy k i with hlt | heq | hgt
        · exact absurd (hbefore k hlt ▸ hfail') Bool.false_ne_true
        · exact heq
        · exact absurd (hbefore' i hgt ▸ hfail) Bool.false_ne_true
      exact Bool.not_eq_true _ ▸ hagain

/-! ### The clears of a run -/

/-- **The clears of a run.** Whatever is done to a container, from its construction or from any
other state on, and whichever allocations fail: every `clear` of the run completes exactly if in
every state in which one is executed the fall-back does not need memory, or finds it. The program
ends with the first one that does not. -/
theorem clears_complete_iff (fails : ℕ → Bool) (M : Codec) (calls : List (MemoryCall μ))
    (s : Memory μ) :
    Proc.Along (MemoryCall.exec fails M) (fun c s => c.Clears → ClearCompletes fails s) calls s ↔
      Proc.Along (MemoryCall.exec fails M) (fun c s => c.Clears → Recovers fails s) calls s :=
  Proc.Along.congr (fun _ s => imp_congr_right fun _ => clear_completes_iff fails s) calls s

/-- A vector that has room is cleared without any memory. -/
theorem clears_complete_iff_room :
    Proc.Along (MemoryCall.exec (fun _ => true) Wire.codec)
      (fun c s => c.Clears → ClearCompletes (fun _ => true) s) [.api .clear]
      (⟨{}, smallCapacity, 1⟩ : Memory (ListMap ParameterKey ParameterValue)) :=
  (clears_complete_iff (fun _ => true) Wire.codec [.api .clear] _).mpr
    ⟨fun _ => .inl le_rfl, fun _ _ => trivial⟩

/-- A container is constructed for 129 entries and cleared when there is no memory left: the
exception of the fall-back leaves `clear`. -/
theorem clears_complete_fails : ∃ s₀ s₁ : Memory (ListMap ParameterKey ParameterValue),
    construct (fun i => decide (2 ≤ i)) { initialReserve := 129 } 0 = .returned () s₀ ∧
    s₀.container = .ofConfig { initialReserve := 129 } ∧
    clear (fun i => decide (2 ≤ i)) s₀ = .threw s₁ ∧
    ¬ClearCompletes (fun i => decide (2 ≤ i)) s₀ := by
  refine ⟨_, _, rfl, rfl, rfl, ?_⟩
  rintro ⟨s', h, -⟩
  cases h

end Memory

end MsgFrame
