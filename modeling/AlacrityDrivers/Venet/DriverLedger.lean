import AlacrityDrivers.Library.Transition
import AlacrityDrivers.Venet.InitializeCleanup
import AlacrityDrivers.Venet.SendInvariant

namespace Venet.Initialize

open Allocation Transition

/-- `VenetInitialize`, with the adapter that NDIS has once it succeeds. -/
def initialized (sizes : Sizes) (numTcbs : Nat) (outcomes : Outcomes) (system : System) :
    Except System (System × Option Adapter) :=
  match system.memory.tryAlloc outcomes.adapter sizes.adapter with
  | (none, _) => do
    let system ← venetHalt sizes system none
    .ok (system, none)
  | (some block, memory) => do
    let attached := venetAttach { system with memory := memory } block.1
    let finished ← setUp sizes numTcbs outcomes ⟨attached, freshAdapter block.1⟩
    if finished.1 = .success then .ok (finished.2.system, some finished.2.adapter)
    else
      let system ← venetHalt sizes finished.2.system (some finished.2.adapter)
      .ok (system, none)

/-- The driver with the adapters that NDIS has, in the order of their initialization. `stopped` tells
    whether a null pointer was used. -/
structure Driver where
  system : System
  adapters : List Adapter
  stopped : Bool

/-- `send` stands for whatever the send path does, which moves TCBs between the two lists. -/
inductive Action where
  | init (outcomes : Outcomes)
  | send (i : Nat) (tcbFree tcbBusy : List Nat)
  | halt (i : Nat)

def Adapter.exchange (a : Adapter) (tcbFree tcbBusy : List Nat) : Adapter :=
  { a with tcbFree := tcbFree, tcbBusy := tcbBusy }

def step (sizes : Sizes) (numTcbs : Nat) (d : Driver) (action : Action) : Option Driver :=
  if d.stopped then none
  else match action with
    | .init outcomes =>
      match initialized sizes numTcbs outcomes d.system with
      | .error system => some { d with system := system, stopped := true }
      | .ok (system, adapter) =>
        some { d with system := system, adapters := d.adapters ++ adapter.toList }
    | .send i tcbFree tcbBusy =>
      d.adapters[i]?.bind fun a =>
        if (tcbFree ++ tcbBusy).Perm (a.tcbFree ++ a.tcbBusy) then
          some { d with adapters := d.adapters.set i (a.exchange tcbFree tcbBusy) }
        else none
    | .halt i =>
      d.adapters[i]?.map fun a =>
        match venetHalt sizes d.system (some a) with
        | .error system => { d with system := system, stopped := true }
        | .ok system => { d with system := system, adapters := d.adapters.eraseIdx i }

def machine (sizes : Sizes) (numTcbs : Nat) : Machine Driver Action :=
  ⟨⟨noAdapters, [], false⟩, step sizes numTcbs⟩

def Adapter.tcbs (a : Adapter) : List Nat := a.tcbFree ++ a.tcbBusy

def Adapter.blocks (sizes : Sizes) (a : Adapter) : List (Nat × Nat) :=
  tcbBlocks sizes a.tcbs ++ [(a.self, sizes.adapter)]

/-- No null pointer was used, exactly what the adapters own is outstanding, each block was freed once
    and with its size, and the list of the driver has exactly the adapters, each with all its TCBs. -/
structure Accounted (sizes : Sizes) (numTcbs : Nat) (d : Driver) : Prop where
  going : d.stopped = false
  memory : d.system.memory.Holds (d.adapters.flatMap (Adapter.blocks sizes))
  listed : d.system.adapterList = d.adapters.map Adapter.self
  filled : ∀ a ∈ d.adapters, a.tcbs.length = numTcbs

/-- An initialization that succeeds or fails where it can be undone, and no halt of an adapter whose
    TCBs are freed with the size of an adapter. -/
def FreesRightly (sizes : Sizes) (numTcbs : Nat) (d : Driver) : Action → Prop
  | .init outcomes => outcomes.adapter = true ∧ (outcomes.Succeed numTcbs ∨
      outcomes.queried = true ∧ (¬ outcomes.ReachesTx ∨ Fits sizes numTcbs outcomes))
  | .send _ _ _ => True
  | .halt i => i < d.adapters.length → sizes.tcb = sizes.adapter ∨ numTcbs = 0

structure Known (sizes : Sizes) (numTcbs : Nat) (d : Driver) : Prop where
  accounted : Accounted sizes numTcbs d
  exported : ∀ a ∈ d.adapters, a.vif = .exported

section Succeed

variable {sizes : Sizes} {others : List (Nat × Nat)} {numTcbs : Nat} {outcomes : Outcomes} {s : Setup}

theorem setupTcbs_length (granted : Nat → Bool) (n i : Nat) (s : Setup)
    (completed : (setupTcbs sizes granted n i s).1 = true) :
    (setupTcbs sizes granted n i s).2.adapter.tcbFree.length = n + s.adapter.tcbFree.length := by
  have loop := setupTxLoop_perm n s.system.memory.made s.adapter.tcbFree
  rw [setupTcbs_list granted n i s completed, loop.length_eq, List.length_append, List.length_range']

structure Complete (sizes : Sizes) (others : List (Nat × Nat)) (numTcbs : Nat) (before after : Setup) :
    Prop where
  built : Built sizes others after
  keeps : Keeps before after
  vif : after.adapter.vif = .exported
  filled : after.adapter.tcbFree.length = numTcbs

theorem setUpTx_succeeds (ready : Ready sizes others numTcbs s) (exported : s.adapter.vif = .exported)
    (succeed : outcomes.Succeed numTcbs) :
    ∃ after, setUpTx sizes outcomes s = .ok (.success, after) ∧
      Complete sizes others numTcbs s after := by
  obtain ⟨built, keeps, vif⟩ := setupTcbs_built outcomes.tcb numTcbs 0 ready.built
  have whole : (setupTcbs sizes outcomes.tcb numTcbs 0 s).1 = true := by
    rw [setupTcbs_filled]
    intro j within
    rw [Nat.zero_add]
    exact succeed.tx.tcbs j within
  have length := setupTcbs_length outcomes.tcb numTcbs 0 s whole
  rw [ready.empty, List.length_nil, Nat.add_zero] at length
  rw [setUpTx, venetSetupTx, ready.numTcbs]
  generalize setupTcbs sizes outcomes.tcb numTcbs 0 s = loop at built keeps vif whole length ⊢
  have created : createTx sizes outcomes loop.2 = .ok (.success, { loop.2 with adapter := {
      loop.2.adapter with numTCBsFree := loop.2.adapter.numTcbs, txHandle := true } }) := by
    simp [createTx, call, vif, exported, VbusIf.exported, succeed.tx.tx, bind, Except.bind]
  have attributes := setAttributes_keeps outcomes { loop.2 with adapter := {
    loop.2.adapter with numTCBsFree := loop.2.adapter.numTcbs, txHandle := true } }
  simp only [whole, Bool.true_eq_false, if_false, created, bind, Except.bind]
  rw [if_neg (not_not.mpr rfl)]
  obtain ⟨system, self, vifSet, tcbFree, tcbBusy, status⟩ := attributes
  have done := status.mpr ⟨succeed.registration, succeed.general⟩
  generalize setAttributes outcomes _ = final at system self vifSet tcbFree tcbBusy done ⊢
  obtain ⟨rc, after⟩ := final
  dsimp only at done system self vifSet tcbFree tcbBusy
  rw [done]
  refine ⟨after, rfl, ⟨?_, tcbBusy.trans built.idle⟩, ⟨?_, self.trans keeps.self⟩,
    vifSet.trans (vif.trans exported), ?_⟩
  · rw [system, self, tcbFree]
    exact built.memory
  · rw [system]
    exact keeps.adapterList
  · rw [tcbFree]
    exact length

theorem setUp_succeeds (built : Built sizes others s) (empty : s.adapter.tcbFree = [])
    (succeed : outcomes.Succeed numTcbs) :
    ∃ after, setUp sizes numTcbs outcomes s = .ok (.success, after) ∧
      Complete sizes others numTcbs s after := by
  have queried := succeed.reaches.queried
  simp only [Outcomes.queried, Bool.and_eq_true] at queried
  obtain ⟨⟨timers, miniport⟩, query⟩ := queried
  obtain ⟨timed, keepsTimed, _, timedStatus⟩ := setupAdapter_ready built empty numTcbs outcomes
  rw [setUp]
  generalize venetSetupAdapter numTcbs outcomes s = first at timed keepsTimed timedStatus ⊢
  rw [if_neg (not_not.mpr (timedStatus.mpr timers))]
  obtain ⟨second, connected, ready, keepsSecond, vif, found⟩ := getInterface_ready timed outcomes
  rw [miniport, query, Bool.and_self, if_pos rfl] at vif
  rw [connected]
  dsimp only [bind, Except.bind]
  rw [if_neg (not_not.mpr (found.mpr ⟨miniport, query, succeed.reaches.opened⟩))]
  obtain ⟨third, received, readyRx, keepsThird, vifRx, rx⟩ := setupRx_ready ready vif outcomes
  rw [received]
  dsimp only
  rw [if_neg (not_not.mpr (rx.mpr succeed.reaches.rx))]
  obtain ⟨after, ran, complete⟩ := setUpTx_succeeds readyRx vifRx succeed
  exact ⟨after, ran, { complete with
    keeps := (keepsTimed.trans keepsSecond).trans (keepsThird.trans complete.keeps) }⟩

end Succeed

section Halt

variable {sizes : Sizes} {others : List (Nat × Nat)} {system : System} {a : Adapter}

theorem halt_exported (exported : a.vif = .exported) :
    venetHalt sizes system (some a) =
      .ok (venetFree (freeTcbs sizes (venetDetach system a.self) a.tcbs) a.self sizes.adapter) := by
  simp [venetHalt, venetFreeRx, venetFreeTx, closeInterface, call, exported, VbusIf.exported,
    freeTcbs, Adapter.tcbs, bind, Except.bind]

theorem halt_frees (exported : a.vif = .exported) (fits : sizes.tcb = sizes.adapter ∨ a.tcbs = [])
    (held : system.memory.Holds (a.blocks sizes ++ others)) :
    ∃ after, venetHalt sizes system (some a) = .ok after ∧ after.memory.Holds others ∧
      after.adapterList = system.adapterList.erase a.self := by
  rw [Adapter.blocks, List.append_assoc, List.singleton_append] at held
  have detached : (venetDetach system a.self).memory.Holds
      (tcbBlocks sizes a.tcbs ++ (a.self, sizes.adapter) :: others) := held
  refine ⟨_, halt_exported exported, Store.Holds.free (freeTcbs_clean _ fits detached), ?_⟩
  rw [venetFree, freeTcbs_adapterList]
  rfl

theorem halt_misuses (exported : a.vif = .exported) (wrong : sizes.tcb ≠ sizes.adapter)
    (owns : a.tcbs ≠ []) (held : system.memory.Holds (a.blocks sizes ++ others)) :
    ∃ after, venetHalt sizes system (some a) = .ok after ∧ after.memory.misused = true := by
  rw [Adapter.blocks, List.append_assoc] at held
  have detached : (venetDetach system a.self).memory.Holds
      (tcbBlocks sizes a.tcbs ++ ([(a.self, sizes.adapter)] ++ others)) := held
  exact ⟨_, halt_exported exported, Store.misused_free (freeTcbs_wrong owns wrong detached) _⟩

end Halt

section Initialized

variable {sizes : Sizes} {numTcbs : Nat} {outcomes : Outcomes} {before : System}

/-- The adapter aside, it is `VenetInitialize`. -/
theorem initialized_system (sizes : Sizes) (numTcbs : Nat) (outcomes : Outcomes) (system : System) :
    (initialized sizes numTcbs outcomes system).map Prod.fst =
      (venetInitialize sizes numTcbs outcomes system).map Prod.snd := by
  unfold initialized venetInitialize
  generalize system.memory.tryAlloc outcomes.adapter sizes.adapter = allocation
  obtain ⟨_ | block, memory⟩ := allocation
  · rfl
  · dsimp only [bind, Except.bind]
    generalize setUp sizes numTcbs outcomes _ = ran
    cases ran with
    | error after => rfl
    | ok finished =>
      dsimp only
      by_cases succeeded : finished.1 = .success
      · rw [if_pos succeeded, if_pos succeeded]
        rfl
      · rw [if_neg succeeded, if_neg succeeded]
        cases venetHalt sizes finished.2.system (some finished.2.adapter) <;> rfl

theorem initialized_allocated (allocated : outcomes.adapter = true) {result : InitStatus × Setup}
    (ran : setUp sizes numTcbs outcomes (attachedSetup sizes before) = .ok result) :
    initialized sizes numTcbs outcomes before =
      if result.1 = .success then .ok (result.2.system, some result.2.adapter)
      else (venetHalt sizes result.2.system (some result.2.adapter)).map fun after =>
        (after, none) := by
  have attached : before.memory.tryAlloc outcomes.adapter sizes.adapter =
      (some (before.memory.alloc sizes.adapter).1, (before.memory.alloc sizes.adapter).2) := by
    rw [allocated]
    rfl
  rw [initialized, attached]
  change Except.bind (setUp sizes numTcbs outcomes (attachedSetup sizes before)) _ = _
  rw [ran]
  dsimp only [Except.bind]
  by_cases succeeded : result.1 = .success
  · rw [if_pos succeeded, if_pos succeeded]
  · rw [if_neg succeeded, if_neg succeeded]
    cases venetHalt sizes result.2.system (some result.2.adapter) <;> rfl

end Initialized

section Step

variable {sizes : Sizes} {numTcbs : Nat} {outcomes : Outcomes} {d next : Driver} {i : Nat}

theorem Accounted.sound (accounted : Accounted sizes numTcbs d) :
    Sound (d.adapters.flatMap (Adapter.blocks sizes)) d.system := by
  refine ⟨accounted.memory, ?_⟩
  intro address among
  rw [accounted.listed, List.mem_map] at among
  obtain ⟨a, running, rfl⟩ := among
  refine ⟨(a.self, sizes.adapter), List.mem_flatMap.mpr ⟨a, running, ?_⟩, rfl⟩
  exact List.mem_append_right _ (List.mem_singleton_self _)

theorem Accounted.distinct (accounted : Accounted sizes numTcbs d) :
    (d.adapters.map Adapter.self).Nodup := by
  have nodup : ((d.adapters.flatMap (Adapter.blocks sizes)).map Prod.fst).Nodup :=
    (accounted.memory.live.map Prod.fst).nodup_iff.mp accounted.memory.nodup
  apply List.Nodup.sublist _ nodup
  generalize d.adapters = adapters
  induction adapters with
  | nil => exact List.Sublist.slnil
  | cons a rest ih =>
    rw [List.map_cons, List.flatMap_cons, List.map_append]
    have own : [a.self].Sublist ((a.blocks sizes).map Prod.fst) := by
      rw [Adapter.blocks, List.map_append]
      exact List.sublist_append_right _ _
    exact own.append ih

theorem blocks_perm (within : i < d.adapters.length) :
    (d.adapters.flatMap (Adapter.blocks sizes)).Perm
      (d.adapters[i].blocks sizes ++ (d.adapters.eraseIdx i).flatMap (Adapter.blocks sizes)) :=
  (List.getElem_cons_eraseIdx_perm within).symm.flatMap_right _

theorem step_init (going : d.stopped = false) :
    step sizes numTcbs d (.init outcomes) =
      match initialized sizes numTcbs outcomes d.system with
      | .error system => some { d with system := system, stopped := true }
      | .ok (system, adapter) =>
        some { d with system := system, adapters := d.adapters ++ adapter.toList } := by
  simp only [step, going, Bool.false_eq_true, if_false]

theorem step_halt (going : d.stopped = false) (within : i < d.adapters.length) :
    step sizes numTcbs d (.halt i) = some (
      match venetHalt sizes d.system (some d.adapters[i]) with
      | .error system => { d with system := system, stopped := true }
      | .ok system => { d with system := system, adapters := d.adapters.eraseIdx i }) := by
  simp only [step, going, Bool.false_eq_true, if_false, List.getElem?_eq_getElem within, Option.map_some]

theorem known_success (known : Known sizes numTcbs d) (allocated : outcomes.adapter = true)
    (succeed : outcomes.Succeed numTcbs)
    (stepped : step sizes numTcbs d (.init outcomes) = some next) : Known sizes numTcbs next := by
  have sound := known.accounted.sound
  obtain ⟨⟨going, memory, listed, filled⟩, exported⟩ := known
  obtain ⟨after, ran, complete⟩ :=
    setUp_succeeds (@attachedSetup_built sizes _ _ sound) rfl succeed
  rw [step_init going, initialized_allocated allocated ran, if_pos rfl] at stepped
  have added : ∀ property : Adapter → Prop, (∀ a ∈ d.adapters, property a) → property after.adapter →
      ∀ a ∈ d.adapters ++ [after.adapter], property a := by
    intro property old new a among
    rcases List.mem_append.mp among with before | now
    · exact old a before
    · rw [List.mem_singleton.mp now]
      exact new
  have tcbs : after.adapter.tcbs = after.adapter.tcbFree := by
    rw [Adapter.tcbs, complete.built.idle, List.append_nil]
  rw [← Option.some.inj stepped]
  refine ⟨⟨going, ?_, ?_, added _ filled ?_⟩, added _ exported complete.vif⟩
  · change after.system.memory.Holds ((d.adapters ++ [after.adapter]).flatMap _)
    rw [List.flatMap_append, List.flatMap_singleton, Adapter.blocks, tcbs]
    have owned := complete.built.memory
    rw [List.append_cons] at owned
    exact owned.perm List.perm_append_comm
  · change after.system.adapterList = (d.adapters ++ [after.adapter]).map Adapter.self
    rw [complete.keeps.adapterList, List.map_append, List.map_singleton, complete.keeps.self, ← listed]
    rfl
  · rw [tcbs]
    exact complete.filled

theorem failure_step (accounted : Accounted sizes numTcbs d) (allocated : outcomes.adapter = true)
    (failed : ¬ outcomes.Succeed numTcbs) :
    ∃ after, step sizes numTcbs d (.init outcomes) = some after ∧ after.adapters = d.adapters ∧
      (Accounted sizes numTcbs after ↔
        outcomes.queried = true ∧ (¬ outcomes.ReachesTx ∨ Fits sizes numTcbs outcomes)) := by
  have sound := accounted.sound
  obtain ⟨result, ran, ends⟩ :=
    setUp_ends (@attachedSetup_built sizes _ _ sound) rfl rfl numTcbs outcomes
  have unsuccessful : result.1 ≠ .success := fun success => failed (ends.success.mp success)
  rw [← halt_cleans_up_iff sound ends unsuccessful, step_init accounted.going,
    initialized_allocated allocated ran, if_neg unsuccessful]
  cases venetHalt sizes result.2.system (some result.2.adapter) with
  | error after =>
    refine ⟨_, rfl, rfl, ?_, False.elim⟩
    intro ledger
    cases ledger.going
  | ok after =>
    refine ⟨{ d with system := after }, ?_, rfl, ?_, ?_⟩
    · change some { d with system := after, adapters := d.adapters ++ [] } = _
      rw [List.append_nil]
    · intro ledger _
      exact ⟨ledger.memory, ledger.listed.trans accounted.listed.symm⟩
    · intro cleaned
      obtain ⟨memory, listed⟩ := cleaned unsuccessful
      exact ⟨accounted.going, memory, listed.trans accounted.listed, accounted.filled⟩

theorem known_init (known : Known sizes numTcbs d)
    (rightly : FreesRightly sizes numTcbs d (.init outcomes))
    (stepped : step sizes numTcbs d (.init outcomes) = some next) : Known sizes numTcbs next := by
  obtain ⟨allocated, either⟩ := rightly
  by_cases succeed : outcomes.Succeed numTcbs
  · exact known_success known allocated succeed stepped
  · obtain ⟨after, same, adapters, undone⟩ := failure_step known.accounted allocated succeed
    rw [same] at stepped
    rw [← Option.some.inj stepped]
    refine ⟨undone.mpr (either.resolve_left succeed), ?_⟩
    rw [adapters]
    exact known.exported

theorem init_forced (known : Known sizes numTcbs d)
    (accounted : ∀ next, step sizes numTcbs d (.init outcomes) = some next →
      Accounted sizes numTcbs next) : FreesRightly sizes numTcbs d (.init outcomes) := by
  have going := known.accounted.going
  cases allocated : outcomes.adapter with
  | false =>
    have refused : initialized sizes numTcbs outcomes d.system = .error d.system := by
      rw [initialized, allocated]
      rfl
    have stopped := accounted { d with stopped := true } (by rw [step_init going, refused])
    cases stopped.going
  | true =>
    refine ⟨allocated, or_iff_not_imp_left.mpr ?_⟩
    intro failed
    obtain ⟨after, stepped, _, undone⟩ := failure_step known.accounted allocated failed
    exact undone.mp (accounted after stepped)

theorem known_send {tcbFree tcbBusy : List Nat} (known : Known sizes numTcbs d)
    (stepped : step sizes numTcbs d (.send i tcbFree tcbBusy) = some next) :
    Known sizes numTcbs next := by
  obtain ⟨⟨going, memory, listed, filled⟩, exported⟩ := known
  simp only [step, going, Bool.false_eq_true, if_false, Option.bind_eq_some_iff,
    Option.ite_none_right_eq_some, Option.some.injEq] at stepped
  obtain ⟨a, found, same, after⟩ := stepped
  obtain ⟨within, rfl⟩ := List.getElem?_eq_some_iff.mp found
  have own := List.getElem_mem within
  have placed (property : Adapter → Prop) (old : ∀ a ∈ d.adapters, property a)
      (new : property (d.adapters[i].exchange tcbFree tcbBusy)) :
      ∀ a ∈ d.adapters.set i (d.adapters[i].exchange tcbFree tcbBusy), property a := by
    intro a among
    rcases List.mem_or_eq_of_mem_set among with before | rfl
    · exact old a before
    · exact new
  have blocks : (d.adapters[i].blocks sizes).Perm
      ((d.adapters[i].exchange tcbFree tcbBusy).blocks sizes) := (same.symm.map _).append_right _
  have selves : (d.adapters.map Adapter.self).set i d.adapters[i].self = d.adapters.map Adapter.self := by
    rw [← List.map_set, List.set_getElem_self]
  rw [← after]
  have vif : d.adapters[i].vif = .exported := exported _ own
  refine ⟨⟨rfl, memory.perm ?_, ?_, placed _ filled ?_⟩, placed _ exported vif⟩
  · refine (blocks_perm within).trans ((blocks.append_right _).trans ?_)
    exact ((List.set_perm_cons_eraseIdx within _).flatMap_right _).symm
  · change d.system.adapterList = (d.adapters.set i _).map Adapter.self
    rw [List.map_set, listed]
    exact selves.symm
  · exact same.length_eq.trans (filled _ own)

/-- Whatever a run of the send path makes of the two lists, the TCBs of the adapter taken for its
    numbers, is a `send` of the adapter. -/
theorem Accounted.sends {p : Params} {s : State} (accounted : Accounted sizes p.numTcbs d)
    (within : i < d.adapters.length) (reached : (Venet.machine p).Reachable s) :
    let named : List Nat → List Nat := List.map fun tcb => d.adapters[i].tcbs.getD tcb 0
    step sizes p.numTcbs d (.send i (named s.tx.tcbFree) (named s.tx.tcbBusy)) =
      some { d with
        adapters :=
          d.adapters.set i (d.adapters[i].exchange (named s.tx.tcbFree) (named s.tx.tcbBusy)) } := by
  intro named
  have all : named (List.range p.numTcbs) = d.adapters[i].tcbs := by
    rw [← accounted.filled _ (List.getElem_mem within)]
    apply List.ext_getElem
    · simp [named]
    · intro tcb _ among
      simp [named, List.getElem?_eq_getElem among]
  have partition := (reachable_invariant reached).accounting.partition.map
    fun tcb => d.adapters[i].tcbs.getD tcb 0
  have same : (named s.tx.tcbFree ++ named s.tx.tcbBusy).Perm d.adapters[i].tcbs := by
    rw [← List.map_append]
    exact partition.trans (List.Perm.of_eq all)
  simp only [step, accounted.going, Bool.false_eq_true, if_false, List.getElem?_eq_getElem within,
    Option.bind_some]
  exact if_pos same

theorem known_halt (known : Known sizes numTcbs d) (fits : sizes.tcb = sizes.adapter ∨ numTcbs = 0)
    (within : i < d.adapters.length) (stepped : step sizes numTcbs d (.halt i) = some next) :
    Known sizes numTcbs next := by
  have distinct := known.accounted.distinct
  obtain ⟨⟨going, memory, listed, filled⟩, exported⟩ := known
  have own := List.getElem_mem within
  have frees : sizes.tcb = sizes.adapter ∨ d.adapters[i].tcbs = [] := by
    rcases fits with same | none
    · exact Or.inl same
    · right
      rw [← List.length_eq_zero_iff, filled _ own, none]
  obtain ⟨after, halted, left, remaining⟩ :=
    halt_frees (exported _ own) frees (memory.perm (blocks_perm within))
  rw [step_halt going within, halted, Option.some.injEq] at stepped
  have fewer : ∀ a ∈ d.adapters.eraseIdx i, a ∈ d.adapters :=
    fun _ among => List.mem_of_mem_eraseIdx among
  rw [← stepped]
  refine ⟨⟨going, left, ?_, fun a among => filled a (fewer a among)⟩,
    fun a among => exported a (fewer a among)⟩
  change after.adapterList = (d.adapters.eraseIdx i).map Adapter.self
  rw [remaining, listed, ← List.eraseIdx_map, ← distinct.erase_getElem i (by simpa using within),
    List.getElem_map]

theorem halt_forced (known : Known sizes numTcbs d) (within : i < d.adapters.length)
    (accounted : ∀ next, step sizes numTcbs d (.halt i) = some next → Accounted sizes numTcbs next) :
    sizes.tcb = sizes.adapter ∨ numTcbs = 0 := by
  by_contra neither
  rw [not_or] at neither
  have own := List.getElem_mem within
  have owns : d.adapters[i].tcbs ≠ [] := by
    intro none
    have filled := known.accounted.filled _ own
    rw [none, List.length_nil] at filled
    exact neither.2 filled.symm
  obtain ⟨after, halted, misused⟩ := halt_misuses (known.exported _ own) neither.1 owns
    (known.accounted.memory.perm (blocks_perm within))
  have ledger := (accounted _ (step_halt known.accounted.going within)).memory.proper
  rw [halted] at ledger
  exact Bool.false_ne_true (ledger.symm.trans misused)

theorem known_start (sizes : Sizes) (numTcbs : Nat) : Known sizes numTcbs (machine sizes numTcbs).start :=
  ⟨⟨rfl, Store.holds_empty, rfl, fun _ none => absurd none List.not_mem_nil⟩,
    fun _ none => absurd none List.not_mem_nil⟩

end Step

/-- The ledger of the driver balances in exactly the runs in which every failed initialization can be
    undone and, unless its TCBs are as large as it is, no adapter that was initialized is halted. -/
theorem driver_ledger_iff (sizes : Sizes) (numTcbs : Nat) (actions : List Action) :
    (machine sizes numTcbs).Throughout (Accounted sizes numTcbs) (machine sizes numTcbs).start actions ↔
      (machine sizes numTcbs).Meets (FreesRightly sizes numTcbs) (machine sizes numTcbs).start
        actions := by
  apply @Machine.throughout_iff_meets _ _ (machine sizes numTcbs) _ _ (Known sizes numTcbs)
    (fun d known => known.accounted) _ _ _ (known_start sizes numTcbs)
  · intro d action next known rightly stepped
    cases action with
    | init outcomes => exact known_init known rightly stepped
    | send i tcbFree tcbBusy => exact known_send known stepped
    | halt i =>
      have within : i < d.adapters.length := by
        by_contra beyond
        have allowed : step sizes numTcbs d (.halt i) = some next := stepped
        simp [step, known.accounted.going, List.getElem?_eq_none (Nat.not_lt.mp beyond)] at allowed
      exact known_halt known (rightly within) within stepped
  · intro d action known accounted
    cases action with
    | init outcomes => exact init_forced known accounted
    | send i tcbFree tcbBusy => exact True.intro
    | halt i => exact fun within => halt_forced known within accounted

end Venet.Initialize
