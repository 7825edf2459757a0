import AlacrityDrivers.Venet.Initialize

namespace Venet.Initialize

open Allocation

structure Ready (sizes : Sizes) (others : List (Nat × Nat)) (numTcbs : Nat) (s : Setup) :
    Prop where
  built : Built sizes others s
  numTcbs : s.adapter.numTcbs = numTcbs
  empty : s.adapter.tcbFree = []

def Outcomes.queried (outcomes : Outcomes) : Bool :=
  outcomes.resetTimer && outcomes.recvTimer && outcomes.miniport && outcomes.query

structure Outcomes.ReachesTx (outcomes : Outcomes) : Prop where
  queried : outcomes.queried = true
  opened : outcomes.opened = 0
  rx : outcomes.rx = true

structure Outcomes.TxSucceeds (outcomes : Outcomes) (numTcbs : Nat) : Prop where
  tcbs : ∀ i, i < numTcbs → outcomes.tcb i = true
  tx : outcomes.tx = true

structure Outcomes.Succeed (outcomes : Outcomes) (numTcbs : Nat) : Prop where
  reaches : outcomes.ReachesTx
  tx : outcomes.TxSucceeds numTcbs
  registration : outcomes.registration = true
  general : outcomes.general = true

/-- `VenetSetupTx` allocates no TCB, or TCBs are as large as an adapter. -/
def Fits (sizes : Sizes) (numTcbs : Nat) (outcomes : Outcomes) : Prop :=
  sizes.tcb = sizes.adapter ∨ numTcbs = 0 ∨ outcomes.tcb 0 = false

structure Ends (sizes : Sizes) (others : List (Nat × Nat)) (numTcbs : Nat) (outcomes : Outcomes)
    (s : Setup) (result : InitStatus × Setup) : Prop where
  keeps : Keeps s result.2
  idle : result.2.adapter.tcbBusy = []
  success : result.1 = .success ↔ outcomes.Succeed numTcbs
  vif : result.2.adapter.vif = if outcomes.queried then .exported else .zeroed
  clean : ¬ outcomes.ReachesTx ∨ Fits sizes numTcbs outcomes → Clean sizes others result.2
  spoilt : outcomes.ReachesTx → ¬ Fits sizes numTcbs outcomes → Spoilt sizes others result.2

section SetUp

variable {sizes : Sizes} {others : List (Nat × Nat)} {numTcbs : Nat} {outcomes : Outcomes}
  {s middle after : Setup}

theorem Keeps.refl (s : Setup) : Keeps s s := ⟨rfl, rfl⟩

theorem Keeps.trans (first : Keeps s middle) (second : Keeps middle after) : Keeps s after :=
  ⟨second.adapterList.trans first.adapterList, second.self.trans first.self⟩

theorem Ready.clean (ready : Ready sizes others numTcbs s) : Clean sizes others s :=
  ⟨ready.built, Or.inr ready.empty⟩

theorem setupAdapter_ready (built : Built sizes others s) (empty : s.adapter.tcbFree = [])
    (numTcbs : Nat) (outcomes : Outcomes) :
    Ready sizes others numTcbs (venetSetupAdapter numTcbs outcomes s).2 ∧
      Keeps s (venetSetupAdapter numTcbs outcomes s).2 ∧
      (venetSetupAdapter numTcbs outcomes s).2.adapter.vif = s.adapter.vif ∧
      ((venetSetupAdapter numTcbs outcomes s).1 = .success ↔
        outcomes.resetTimer = true ∧ outcomes.recvTimer = true) := by
  have memory := built.memory
  rw [empty] at memory
  unfold venetSetupAdapter
  cases reset : outcomes.resetTimer with
  | false => exact ⟨⟨⟨memory, rfl⟩, rfl, rfl⟩, ⟨rfl, rfl⟩, rfl, nofun, nofun⟩
  | true =>
    cases recv : outcomes.recvTimer with
    | false => exact ⟨⟨⟨memory, rfl⟩, rfl, rfl⟩, ⟨rfl, rfl⟩, rfl, nofun, nofun⟩
    | true => exact ⟨⟨⟨memory, rfl⟩, rfl, rfl⟩, ⟨rfl, rfl⟩, rfl, fun _ => ⟨rfl, rfl⟩, fun _ => rfl⟩

theorem getInterface_found (s : Setup) (miniport : outcomes.miniport = true)
    (query : outcomes.query = true) :
    venetGetInterface outcomes s =
      .ok (if outcomes.opened ≠ 0 then .failure else .success,
        { s with adapter := { s.adapter with vif := .exported } }) := by
  by_cases refused : outcomes.opened ≠ 0
  · simp [venetGetInterface, call, VbusIf.exported, miniport, query, refused, bind, Except.bind]
  · simp [venetGetInterface, call, VbusIf.exported, miniport, query, refused, bind, Except.bind]

theorem getInterface_ready (ready : Ready sizes others numTcbs s) (outcomes : Outcomes) :
    ∃ result, venetGetInterface outcomes s = .ok result ∧ Ready sizes others numTcbs result.2 ∧
      Keeps s result.2 ∧
      result.2.adapter.vif =
        (if outcomes.miniport && outcomes.query then .exported else s.adapter.vif) ∧
      (result.1 = .success ↔
        outcomes.miniport = true ∧ outcomes.query = true ∧ outcomes.opened = 0) := by
  cases miniport : outcomes.miniport with
  | false =>
    rw [venetGetInterface, if_pos miniport]
    exact ⟨_, rfl, ready, .refl s, rfl, nofun, nofun⟩
  | true =>
    cases query : outcomes.query with
    | false =>
      rw [venetGetInterface, miniport, if_neg nofun, if_pos query]
      exact ⟨_, rfl, ready, .refl s, rfl, nofun, nofun⟩
    | true =>
      rw [getInterface_found s miniport query]
      refine ⟨_, rfl, ⟨⟨ready.built.memory, ready.built.idle⟩, ready.numTcbs, ready.empty⟩,
        ⟨rfl, rfl⟩, rfl, ?_⟩
      by_cases refused : outcomes.opened ≠ 0
      · simp [refused]
      · simp only [not_not] at refused
        simp [refused]

theorem setupRx_ready (ready : Ready sizes others numTcbs s)
    (exported : s.adapter.vif = .exported) (outcomes : Outcomes) :
    ∃ result, venetSetupRx outcomes s = .ok result ∧ Ready sizes others numTcbs result.2 ∧
      Keeps s result.2 ∧ result.2.adapter.vif = .exported ∧
      (result.1 = .success ↔ outcomes.rx = true) := by
  refine ⟨(if outcomes.rx = false then .failure else .success,
    { s with adapter := { s.adapter with rxHandle := outcomes.rx } }), ?_,
    ⟨⟨ready.built.memory, ready.built.idle⟩, ready.numTcbs, ready.empty⟩, ⟨rfl, rfl⟩, exported, ?_⟩
  · cases rx : outcomes.rx <;>
      simp [venetSetupRx, venetFreeRx, call, exported, VbusIf.exported, rx, bind, Except.bind]
  · cases outcomes.rx <;> simp

theorem setupTcbs_built (granted : Nat → Bool) (n i : Nat) (built : Built sizes others s) :
    Built sizes others (setupTcbs sizes granted n i s).2 ∧
      Keeps s (setupTcbs sizes granted n i s).2 ∧
      (setupTcbs sizes granted n i s).2.adapter.vif = s.adapter.vif := by
  induction n generalizing i s with
  | zero => exact ⟨built, .refl s, rfl⟩
  | succ n ih =>
    have held := built.memory.tryAlloc (granted i) sizes.tcb
    cases grant : granted i with
    | false =>
      rw [setupTcbs, grant]
      exact ⟨built, ⟨rfl, rfl⟩, rfl⟩
    | true =>
      rw [grant] at held
      rw [setupTcbs, grant]
      have added : Built sizes others
          ⟨{ s.system with memory := (s.system.memory.alloc sizes.tcb).2 },
            { s.adapter with
              tcbFree := (s.system.memory.alloc sizes.tcb).1.1 :: s.adapter.tcbFree }⟩ :=
        ⟨held, built.idle⟩
      rcases ih (i + 1) added with ⟨later, keeps, vif⟩
      exact ⟨later, ⟨keeps.adapterList, keeps.self⟩, vif⟩

theorem setupTcbs_filled (granted : Nat → Bool) (n i : Nat) (s : Setup) :
    (setupTcbs sizes granted n i s).1 = true ↔ ∀ j, j < n → granted (i + j) = true := by
  induction n generalizing i s with
  | zero => exact ⟨fun _ j before => absurd before (Nat.not_lt_zero j), fun _ => rfl⟩
  | succ n ih =>
    cases grant : granted i with
    | false =>
      rw [setupTcbs, grant]
      refine ⟨nofun, ?_⟩
      intro all
      have first := all 0 (Nat.zero_lt_succ n)
      rw [Nat.add_zero, grant] at first
      cases first
    | true =>
      rw [setupTcbs, grant]
      refine (ih (i + 1) _).trans ⟨?_, ?_⟩
      · intro later j before
        cases j with
        | zero => exact grant
        | succ j =>
          rw [← Nat.succ_add_eq_add_succ]
          exact later j (by omega)
      · intro all j before
        rw [Nat.succ_add_eq_add_succ]
        exact all (j + 1) (by omega)

theorem setupTcbs_empty (granted : Nat → Bool) (n i : Nat) (s : Setup) :
    (setupTcbs sizes granted n i s).2.adapter.tcbFree = [] ↔
      s.adapter.tcbFree = [] ∧ (n = 0 ∨ granted i = false) := by
  induction n generalizing i s with
  | zero => exact ⟨fun empty => ⟨empty, Or.inl rfl⟩, fun either => either.1⟩
  | succ n ih =>
    cases grant : granted i with
    | false =>
      rw [setupTcbs, grant]
      exact ⟨fun empty => ⟨empty, Or.inr rfl⟩, fun either => either.1⟩
    | true =>
      rw [setupTcbs, grant]
      refine (ih (i + 1) _).trans ⟨?_, ?_⟩
      · rintro ⟨impossible, _⟩
        cases impossible
      · rintro ⟨_, none | refused⟩
        · cases none
        · cases refused

/-- A completed loop leaves the free list of the loop that the sends start from, with the TCBs
    numbered by their addresses. -/
theorem setupTcbs_list (granted : Nat → Bool) (n i : Nat) (s : Setup)
    (completed : (setupTcbs sizes granted n i s).1 = true) :
    (setupTcbs sizes granted n i s).2.adapter.tcbFree =
      setupTxLoop n s.system.memory.made s.adapter.tcbFree := by
  induction n generalizing i s with
  | zero => rfl
  | succ n ih =>
    cases grant : granted i with
    | false =>
      rw [setupTcbs, grant] at completed
      cases completed
    | true =>
      rw [setupTcbs, grant] at completed ⊢
      exact ih (i + 1) _ completed

theorem createTx_ends (built : Built sizes others s) (exported : s.adapter.vif = .exported)
    (outcomes : Outcomes) :
    ∃ result, createTx sizes outcomes s = .ok result ∧ Keeps s result.2 ∧
      result.2.adapter.vif = .exported ∧ result.2.adapter.tcbBusy = [] ∧
      (result.1 = .success ↔ outcomes.tx = true) ∧
      (Clean sizes others s → Clean sizes others result.2) ∧
      (Spoilt sizes others s → Spoilt sizes others result.2) := by
  cases tx : outcomes.tx with
  | false =>
    refine ⟨(.failure, ⟨freeTcbs sizes s.system s.adapter.tcbFree, { s.adapter with
      numTCBsFree := s.adapter.numTcbs, tcbFree := [], tcbBusy := [], txHandle := false }⟩),
      ?_, ⟨freeTcbs_adapterList _, rfl⟩, exported, rfl, ⟨nofun, nofun⟩, ?_, ?_⟩
    · simp [createTx, venetFreeTx, call, exported, VbusIf.exported, built.idle, tx, freeTcbs, bind,
        Except.bind]
    · intro clean
      exact ⟨⟨freeTcbs_clean _ clean.fits clean.built.memory, rfl⟩, Or.inr rfl⟩
    · rintro (misused | ⟨_, wrong, some⟩)
      · exact Or.inl (freeTcbs_misused _ misused)
      · exact Or.inl (freeTcbs_wrong some wrong built.memory)
  | true =>
    refine ⟨(.success, { s with adapter := { s.adapter with
      numTCBsFree := s.adapter.numTcbs, txHandle := true } }),
      ?_, ⟨rfl, rfl⟩, exported, built.idle, ⟨fun _ => rfl, fun _ => rfl⟩, ?_, ?_⟩
    · simp [createTx, call, exported, VbusIf.exported, tx, bind, Except.bind]
    · intro clean
      exact ⟨⟨clean.built.memory, clean.built.idle⟩, clean.fits⟩
    · rintro (misused | ⟨_, wrong, some⟩)
      · exact Or.inl misused
      · exact Or.inr ⟨⟨built.memory, built.idle⟩, wrong, some⟩

theorem setupTx_ends (ready : Ready sizes others numTcbs s)
    (exported : s.adapter.vif = .exported) (outcomes : Outcomes) :
    ∃ result, venetSetupTx sizes outcomes s = .ok result ∧ Keeps s result.2 ∧
      result.2.adapter.vif = .exported ∧ result.2.adapter.tcbBusy = [] ∧
      (result.1 = .success ↔ outcomes.TxSucceeds numTcbs) ∧
      (Fits sizes numTcbs outcomes → Clean sizes others result.2) ∧
      (¬ Fits sizes numTcbs outcomes → Spoilt sizes others result.2) := by
  rcases setupTcbs_built outcomes.tcb numTcbs 0 ready.built with ⟨built, keeps, vif⟩
  have filled := @setupTcbs_filled sizes outcomes.tcb numTcbs 0 s
  have empty := @setupTcbs_empty sizes outcomes.tcb numTcbs 0 s
  simp only [Nat.zero_add, ready.empty, true_and] at filled empty
  rw [venetSetupTx, ready.numTcbs]
  generalize setupTcbs sizes outcomes.tcb numTcbs 0 s = loop at built keeps vif filled empty ⊢
  have clean : Fits sizes numTcbs outcomes → Clean sizes others loop.2 := by
    intro fits
    refine ⟨built, ?_⟩
    rcases fits with same | none
    · exact Or.inl same
    · exact Or.inr (empty.mpr none)
  have spoilt : ¬ Fits sizes numTcbs outcomes → Spoilt sizes others loop.2 := by
    intro misfit
    rw [Fits, not_or] at misfit
    exact Or.inr ⟨built, misfit.1, fun none => misfit.2 (empty.mp none)⟩
  by_cases short : loop.1 = false
  · rw [if_pos short]
    refine ⟨_, rfl, keeps, vif.trans exported, built.idle, ⟨nofun, ?_⟩, clean, spoilt⟩
    intro succeeds
    rw [filled.mpr succeeds.tcbs] at short
    cases short
  · rw [if_neg short]
    rw [Bool.not_eq_false] at short
    obtain ⟨result, ran, later, set, idle, success, keepsClean, keepsSpoilt⟩ :=
      createTx_ends built (vif.trans exported) outcomes
    refine ⟨result, ran, keeps.trans later, set, idle, success.trans ⟨?_, ?_⟩,
      fun fits => keepsClean (clean fits), fun misfit => keepsSpoilt (spoilt misfit)⟩
    · intro tx
      exact ⟨filled.mp short, tx⟩
    · intro succeeds
      exact succeeds.tx

theorem ends_early {result : InitStatus × Setup} (keeps : Keeps s result.2)
    (ready : Ready sizes others numTcbs result.2) (failed : result.1 ≠ .success)
    (vif : result.2.adapter.vif = if outcomes.queried then .exported else .zeroed)
    (short : ¬ outcomes.ReachesTx) : Ends sizes others numTcbs outcomes s result where
  keeps := keeps
  idle := ready.built.idle
  success := ⟨fun success => absurd success failed, fun succeed => absurd succeed.reaches short⟩
  vif := vif
  clean := fun _ => ready.clean
  spoilt := fun reaches => absurd reaches short

theorem setAttributes_keeps (outcomes : Outcomes) (s : Setup) :
    (setAttributes outcomes s).2.system = s.system ∧
      (setAttributes outcomes s).2.adapter.self = s.adapter.self ∧
      (setAttributes outcomes s).2.adapter.vif = s.adapter.vif ∧
      (setAttributes outcomes s).2.adapter.tcbFree = s.adapter.tcbFree ∧
      (setAttributes outcomes s).2.adapter.tcbBusy = s.adapter.tcbBusy ∧
      ((setAttributes outcomes s).1 = .success ↔
        outcomes.registration = true ∧ outcomes.general = true) := by
  unfold setAttributes
  cases outcomes.registration <;> cases outcomes.general <;> simp

theorem setUpTx_ends (ready : Ready sizes others numTcbs s) (exported : s.adapter.vif = .exported)
    (reaches : outcomes.ReachesTx) :
    ∃ result, setUpTx sizes outcomes s = .ok result ∧
      Ends sizes others numTcbs outcomes s result := by
  obtain ⟨sent, ran, keeps, vifSent, idle, txSucceeds, clean, spoilt⟩ :=
    setupTx_ends ready exported outcomes
  rw [setUpTx, ran]
  dsimp only [bind, Except.bind]
  by_cases unsent : sent.1 ≠ .success
  · rw [if_pos unsent]
    refine ⟨_, rfl, keeps, idle, ⟨fun success => absurd success unsent, ?_⟩, ?_, ?_,
      fun _ => spoilt⟩
    · intro succeed
      exact absurd (txSucceeds.mpr succeed.tx) unsent
    · rw [vifSent, reaches.queried]
      rfl
    · rintro (short | fits)
      · exact absurd reaches short
      · exact clean fits
  rw [if_neg unsent]
  rw [not_not, txSucceeds] at unsent
  rcases setAttributes_keeps outcomes sent.2 with ⟨system, self, vif, tcbFree, tcbBusy, attributes⟩
  generalize setAttributes outcomes sent.2 = final at system self vif tcbFree tcbBusy attributes ⊢
  have carried : Built sizes others sent.2 → Built sizes others final.2 := by
    intro built
    refine ⟨?_, tcbBusy.trans built.idle⟩
    rw [system, self, tcbFree]
    exact built.memory
  refine ⟨_, rfl, ⟨?_, self.trans keeps.self⟩, tcbBusy.trans idle, ?_, ?_, ?_, ?_⟩
  · rw [system]
    exact keeps.adapterList
  · rw [attributes]
    constructor
    · intro both
      exact ⟨reaches, unsent, both.1, both.2⟩
    · intro succeed
      exact ⟨succeed.registration, succeed.general⟩
  · rw [vif, vifSent, reaches.queried]
    rfl
  · rintro (short | fits)
    · exact absurd reaches short
    · refine ⟨carried (clean fits).built, ?_⟩
      rw [tcbFree]
      exact (clean fits).fits
  · intro _ misfit
    rcases spoilt misfit with misused | ⟨built, wrong, some⟩
    · rw [Spoilt, system]
      exact Or.inl misused
    · rw [Spoilt, tcbFree]
      exact Or.inr ⟨carried built, wrong, some⟩

theorem setUp_ends (built : Built sizes others s) (empty : s.adapter.tcbFree = [])
    (unset : s.adapter.vif = .zeroed) (numTcbs : Nat) (outcomes : Outcomes) :
    ∃ result, setUp sizes numTcbs outcomes s = .ok result ∧
      Ends sizes others numTcbs outcomes s result := by
  rcases setupAdapter_ready built empty numTcbs outcomes with ⟨timed, keepsTimed, vifTimed, timers⟩
  rw [setUp]
  generalize venetSetupAdapter numTcbs outcomes s = first at timed keepsTimed vifTimed timers ⊢
  by_cases untimed : first.1 ≠ .success
  · have unqueried : ¬ outcomes.queried = true := by
      intro queried
      simp only [Outcomes.queried, Bool.and_eq_true] at queried
      exact untimed (timers.mpr queried.1.1)
    rw [if_pos untimed]
    refine ⟨_, rfl, ends_early keepsTimed timed untimed ?_ fun reaches => unqueried reaches.queried⟩
    rw [if_neg unqueried, vifTimed, unset]
  rw [if_neg untimed]
  rw [not_not, timers] at untimed
  have queried : outcomes.queried = (outcomes.miniport && outcomes.query) := by
    simp [Outcomes.queried, untimed.1, untimed.2]
  obtain ⟨second, connected, ready, keepsSecond, vifSecond, found⟩ :=
    getInterface_ready timed outcomes
  have keeps := keepsTimed.trans keepsSecond
  rw [connected]
  dsimp only [bind, Except.bind]
  by_cases unconnected : second.1 ≠ .success
  · rw [if_pos unconnected]
    refine ⟨_, rfl, ends_early keeps ready unconnected ?_ ?_⟩
    · rw [vifSecond, queried, vifTimed, unset]
    · intro reaches
      have present := reaches.queried
      rw [queried, Bool.and_eq_true] at present
      exact unconnected (found.mpr ⟨present.1, present.2, reaches.opened⟩)
  rw [if_neg unconnected]
  rw [not_not, found] at unconnected
  have present : outcomes.queried = true := by
    rw [queried, unconnected.1, unconnected.2.1]
    rfl
  rw [← queried, present, if_pos rfl] at vifSecond
  obtain ⟨third, received, readyRx, keepsThird, vifThird, rx⟩ := setupRx_ready ready vifSecond outcomes
  have keepsRx := keeps.trans keepsThird
  rw [received]
  dsimp only
  by_cases unreceived : third.1 ≠ .success
  · rw [if_pos unreceived]
    refine ⟨_, rfl, ends_early keepsRx readyRx unreceived ?_ fun reaches => unreceived (rx.mpr reaches.rx)⟩
    rw [vifThird, present]
    rfl
  rw [if_neg unreceived]
  rw [not_not, rx] at unreceived
  have reaches : outcomes.ReachesTx := ⟨present, unconnected.2.2, unreceived⟩
  obtain ⟨result, ran, ends⟩ := setUpTx_ends readyRx vifThird reaches
  exact ⟨result, ran, { ends with keeps := keepsRx.trans ends.keeps }⟩

end SetUp

/-- Exactly `others` are outstanding, and every adapter of the list is one of them. -/
structure Sound (others : List (Nat × Nat)) (system : System) : Prop where
  memory : system.memory.Holds others
  listed : ∀ a ∈ system.adapterList, ∃ block ∈ others, block.1 = a

/-- No null pointer was used, and a failure leaves what there was before the call: what it
    allocated was freed once and with its size, and its adapter is not on the list. -/
def CleansUp (others : List (Nat × Nat)) (before : System) :
    Except System (InitStatus × System) → Prop
  | .error _ => False
  | .ok result => result.1 ≠ .success →
      result.2.memory.Holds others ∧ result.2.adapterList = before.adapterList

section CleanUp

variable {sizes : Sizes} {others : List (Nat × Nat)} {before : System} {numTcbs : Nat}
  {outcomes : Outcomes}

theorem Sound.fresh (sound : Sound others before) : before.memory.made ∉ before.adapterList := by
  intro among
  obtain ⟨block, outstanding, same⟩ := sound.listed _ among
  have older := sound.memory.fresh block (sound.memory.live.symm.subset outstanding)
  omega

def attachedSetup (sizes : Sizes) (before : System) : Setup :=
  ⟨venetAttach { before with memory := (before.memory.alloc sizes.adapter).2 } before.memory.made,
    freshAdapter before.memory.made⟩

theorem initialize_allocated (allocated : outcomes.adapter = true) {result : InitStatus × Setup}
    (ran : setUp sizes numTcbs outcomes (attachedSetup sizes before) = .ok result) :
    venetInitialize sizes numTcbs outcomes before =
      if result.1 = .success then .ok (.success, result.2.system)
      else (venetHalt sizes result.2.system (some result.2.adapter)).map fun after =>
        (result.1, after) := by
  have attached : before.memory.tryAlloc outcomes.adapter sizes.adapter =
      (some (before.memory.alloc sizes.adapter).1, (before.memory.alloc sizes.adapter).2) := by
    rw [allocated]
    rfl
  rw [venetInitialize, attached]
  change Except.bind (setUp sizes numTcbs outcomes (attachedSetup sizes before)) _ = _
  rw [ran]
  dsimp only [Except.bind]
  by_cases succeeded : result.1 = .success
  · rw [if_pos succeeded, if_pos succeeded]
  · rw [if_neg succeeded, if_neg succeeded]
    cases venetHalt sizes result.2.system (some result.2.adapter) <;> rfl

theorem initialize_unallocated (refused : outcomes.adapter = false) :
    venetInitialize sizes numTcbs outcomes before = .error before := by
  rw [venetInitialize, refused]
  rfl

theorem attachedSetup_built (sound : Sound others before) :
    Built sizes others (attachedSetup sizes before) :=
  ⟨sound.memory.alloc sizes.adapter, rfl⟩

theorem halt_cleans_up_iff (sound : Sound others before) {result : InitStatus × Setup}
    (ends : Ends sizes others numTcbs outcomes (attachedSetup sizes before) result)
    (failed : result.1 ≠ .success) :
    CleansUp others before ((venetHalt sizes result.2.system (some result.2.adapter)).map
        fun after => (result.1, after)) ↔
      outcomes.queried = true ∧ (¬ outcomes.ReachesTx ∨ Fits sizes numTcbs outcomes) := by
  have self : result.2.adapter.self = before.memory.made := ends.keeps.self
  have vif := ends.vif
  cases queried : outcomes.queried with
  | false =>
    rw [queried] at vif
    rw [halt_unset vif]
    exact ⟨nofun, fun impossible => absurd impossible.1 nofun⟩
  | true =>
    rw [queried] at vif
    by_cases fits : ¬ outcomes.ReachesTx ∨ Fits sizes numTcbs outcomes
    · have attached : result.2.system.adapterList =
          before.adapterList ++ [result.2.adapter.self] := by
        rw [ends.keeps.adapterList, self]
        rfl
      have fresh : result.2.adapter.self ∉ before.adapterList := by
        rw [self]
        exact sound.fresh
      obtain ⟨after, halted, memory, listed⟩ := halt_clean (ends.clean fits) attached fresh vif
      rw [halted]
      exact ⟨fun _ => ⟨rfl, fits⟩, fun _ _ => ⟨memory, listed⟩⟩
    · have reaches : outcomes.ReachesTx := not_not.mp fun short => fits (Or.inl short)
      have misfit : ¬ Fits sizes numTcbs outcomes := fun fit => fits (Or.inr fit)
      obtain ⟨after, halted, misused⟩ := halt_spoilt (ends.spoilt reaches misfit) ends.idle vif
      rw [halted]
      constructor
      · intro cleaned
        have proper := (cleaned failed).1.proper
        rw [misused] at proper
        cases proper
      · intro either
        exact absurd either.2 fits

/-- `VenetInitialize` cleans up after itself exactly where the adapter is allocated and, unless it
    succeeds, the bus interface is found and no TCB is freed with the size of an adapter. -/
theorem initialize_cleans_up_iff (sizes : Sizes) (numTcbs : Nat) (outcomes : Outcomes)
    (before : System) (others : List (Nat × Nat)) (sound : Sound others before) :
    CleansUp others before (venetInitialize sizes numTcbs outcomes before) ↔
      outcomes.adapter = true ∧ (outcomes.Succeed numTcbs ∨
        outcomes.queried = true ∧ (¬ outcomes.ReachesTx ∨ Fits sizes numTcbs outcomes)) := by
  cases allocated : outcomes.adapter with
  | false =>
    rw [initialize_unallocated allocated]
    exact ⟨nofun, fun impossible => absurd impossible.1 nofun⟩
  | true =>
    obtain ⟨result, ran, ends⟩ :=
      setUp_ends (@attachedSetup_built sizes _ _ sound) rfl rfl numTcbs outcomes
    rw [initialize_allocated allocated ran]
    by_cases succeeded : result.1 = .success
    · rw [if_pos succeeded]
      exact ⟨fun _ => ⟨rfl, Or.inl (ends.success.mp succeeded)⟩, fun _ failed => absurd rfl failed⟩
    · rw [if_neg succeeded, halt_cleans_up_iff sound ends succeeded]
      constructor
      · intro cleaned
        exact ⟨rfl, Or.inr cleaned⟩
      · rintro ⟨_, succeed | cleaned⟩
        · exact absurd (ends.success.mpr succeed) succeeded
        · exact cleaned

def noAdapters : System := ⟨.empty, []⟩

theorem noAdapters_sound : Sound [] noAdapters := ⟨Store.holds_empty, nofun⟩

def someSizes : Sizes where
  adapter := 1024
  tcb := 1600

def openRefused : Outcomes where
  adapter := true
  resetTimer := true
  recvTimer := true
  miniport := true
  query := true
  opened := -1
  rx := true
  tcb := fun _ => true
  tx := true
  registration := true
  general := true

theorem initialize_cleans_up_iff_open_refused :
    CleansUp [] noAdapters (venetInitialize someSizes 20 openRefused noAdapters) ↔
      openRefused.adapter = true ∧ (openRefused.Succeed 20 ∨
        openRefused.queried = true ∧ (¬ openRefused.ReachesTx ∨ Fits someSizes 20 openRefused)) :=
  initialize_cleans_up_iff someSizes 20 openRefused noAdapters [] noAdapters_sound

/-- Without memory for the adapter `VenetHalt` is called with a null pointer. -/
theorem refused_adapter_halted :
    venetInitialize someSizes 20 { openRefused with adapter := false } noAdapters =
        .error noAdapters ∧
      ¬ CleansUp [] noAdapters
        (venetInitialize someSizes 20 { openRefused with adapter := false } noAdapters) :=
  ⟨rfl, id⟩

end CleanUp

end Venet.Initialize
