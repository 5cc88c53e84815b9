import Mathlib.Algebra.BigOperators.Group.Finset
import Payserver.Provenance
import Payserver.Termination

namespace Payserver.Bitcoind

-- syncUnspent's steps to its return from each of its points.
def SyncPc.steps : SyncPc → Nat
  | .lock => 4
  | .list => 3
  | .fill _ => 2
  | .unlock _ => 1

-- The steps a goroutine has left, at most, when every cache it can meet has at
-- most N entries.
def Goroutine.Budget (W : P2PKHWeight) (N : Nat) (s : Shared) (n : Nat) : Goroutine → Prop
  | .craft f amt _ pc => Bitcoind.Budget W f amt N s n pc
  | .sync pc => pc.steps ≤ n
  | .synced _ => True

theorem Goroutine.budget_frame {W : P2PKHWeight} {N n : Nat} {s s' : Shared} {routine : Goroutine}
    (budget : routine.Budget W N s n) (keep : routine.holdsCache → s'.unspent = s.unspent) :
    routine.Budget W N s' n := by
  cases routine with
  | craft f amt address pc =>
    cases pc
    case select =>
      obtain ⟨m,c,floor,current,rest⟩ := budget
      exact ⟨m,c,floor,(keep rfl).trans current,rest⟩
    case unlockSelect result => cases result <;> exact budget
    all_goals exact budget
  | sync | synced => exact budget

theorem routine_budget_step {E : Env} {g N n : Nat} {sys : System} {s' : Shared} {routine routine' : Goroutine}
    {choice : Choice} (cached : sys.shared.unspent.isSome)
    (sized : ∀ f amt address, routine = .craft f amt address .lockSelect →
      ∃ m, sys.shared.unspent = some m ∧ m.len ≤ N ∧ NoOverflow E.weight f amt m)
    (budget : routine.Budget E.weight N sys.shared n) (ran : routine.step E g sys.shared choice = some (s',routine')) :
    ∃ n', n = n' + 1 ∧ routine'.Budget E.weight N s' n' := by
  cases routine with
  | craft f amt address pc =>
    obtain ⟨pc',crafted,rfl⟩ := craft_step ran
    exact budget_step (fun _ => cached) (fun at_pc => sized f amt address (at_pc ▸ rfl)) budget crafted
  | sync pc =>
    obtain ⟨⟨s₁,after⟩,stepped,same⟩ := Option.map_eq_some'.mp ran
    cases same
    cases pc <;> simp only [syncStep] at stepped
    case lock =>
      split at stepped <;> cases stepped
      exact spend budget (by simp [SyncPc.steps])
    case list => split at stepped <;> cases stepped <;> exact spend budget (by simp [SyncPc.steps])
    case fill =>
      cases stepped
      exact spend budget (by simp [SyncPc.steps])
    case unlock =>
      cases stepped
      obtain ⟨n',rfl,-⟩ := spend budget (show 0 < 1 by omega)
      exact ⟨n',rfl,trivial⟩
  | synced => cases ran

-- A sound state of a schedule with fuel for its goroutines: each goroutine g
-- has fuel g steps left, at most.
structure Fueled (W : P2PKHWeight) (cache0 utxos0 : List ListUnspentResult) (sys : System) (fuel : Nat → Nat)
    extends Sound W cache0 utxos0 sys : Prop where
  budget : ∀ (g : Nat) (routine : Goroutine), sys.goroutines[g]? = some routine →
    routine.Budget W (max cache0.length utxos0.length) sys.shared (fuel g)

section
variable {E : Env} {cache0 utxos0 : List ListUnspentResult} {sys next : System} {fuel : Nat → Nat}

theorem fueled_run_step {g : Nat} {choice : Choice} (fueled : Fueled E.weight cache0 utxos0 sys fuel)
    (stepped : sys.step E (.run g choice) = some next) :
    ∃ n, fuel g = n + 1 ∧ g < sys.goroutines.length ∧ Fueled E.weight cache0 utxos0 next (Function.update fuel g n) := by
  cases at_g : sys.goroutines[g]? with
  | none => simp [System.step,at_g] at stepped
  | some routine =>
    obtain ⟨-,routine',ran,shape⟩ := step_run stepped at_g
    have sized f amt address (at_pc : routine = .craft f amt address .lockSelect) :
        ∃ m, sys.shared.unspent = some m ∧ m.len ≤ max cache0.length utxos0.length ∧ NoOverflow E.weight f amt m := by
      subst at_pc
      obtain ⟨m,current,-,size,bounded⟩ := fueled.sized at_g
      exact ⟨m,current,size,bounded⟩
    obtain ⟨n,spent,budget⟩ := routine_budget_step fueled.lock.cached sized (fueled.budget g routine at_g) ran
    refine ⟨n,spent,(List.getElem?_eq_some_iff.mp at_g).1,sound_step fueled.toSound stepped,?_⟩
    rw [shape]
    refine forall_set at_g (by simpa using budget) fun h r other at_h => ?_
    rw [Function.update_noteq other]
    exact Goroutine.budget_frame (fueled.budget h r at_h) (cache_kept fueled.lock stepped other at_h)

theorem fueled_broadcast {g : Nat} (fueled : Fueled E.weight cache0 utxos0 sys fuel)
    (stepped : sys.step E (.broadcast g) = some next) : Fueled E.weight cache0 utxos0 next fuel := by
  have sound := sound_step fueled.toSound stepped
  simp only [System.step] at stepped
  split at stepped <;> cases stepped
  exact ⟨sound,fun h r at_h => Goroutine.budget_frame (fueled.budget h r at_h) fun _ => rfl⟩

end

-- The goroutine steps of a schedule, its broadcasts apart.
def Event.isRun : Event → Bool
  | .run _ _ => true
  | .broadcast _ => false

theorem sum_update_spent {fuel : Nat → Nat} {g k n : Nat} (within : g < k) (spent : fuel g = n + 1) :
    (∑ h in Finset.range k, Function.update fuel g n h) + 1 = ∑ h in Finset.range k, fuel h := by
  have mem : g ∈ Finset.range k := Finset.mem_range.mpr within
  rw [Finset.sum_update_of_mem mem,Finset.sum_eq_add_sum_diff_singleton mem fuel,spent]
  omega

section
variable {E : Env} {cache0 utxos0 : List ListUnspentResult}

theorem fueled_run {sys last : System} {fuel : Nat → Nat} {events : List Event}
    (fueled : Fueled E.weight cache0 utxos0 sys fuel) (ran : sys.run E events = some last) :
    ∃ fuel', Fueled E.weight cache0 utxos0 last fuel' ∧
      (events.filter Event.isRun).length + ∑ g in Finset.range last.goroutines.length, fuel' g ≤
        ∑ g in Finset.range sys.goroutines.length, fuel g := by
  induction events generalizing sys fuel with
  | nil =>
    cases ran
    exact ⟨fuel,fueled,by simp⟩
  | cons event rest ih =>
    obtain ⟨next,stepped,continued⟩ := Option.bind_eq_some.mp ran
    have length := step_length stepped
    cases event with
    | broadcast g =>
      obtain ⟨fuel',fueled',spent⟩ := ih (fueled_broadcast fueled stepped) continued
      exact ⟨fuel',fueled',by simpa [Event.isRun,length] using spent⟩
    | run g choice =>
      obtain ⟨n,spent,within,fueled⟩ := fueled_run_step fueled stepped
      obtain ⟨fuel',fueled',used⟩ := ih fueled continued
      have total := sum_update_spent within spent
      rw [length] at used
      exact ⟨fuel',fueled',by simp only [Event.isRun,List.filter_cons_of_pos,List.length_cons]; omega⟩

theorem fueled_complete {sys : System} {fuel : Nat → Nat} (fueled : Fueled E.weight cache0 utxos0 sys fuel) :
    ∃ more final, sys.run E more = some final ∧ ∀ routine ∈ final.goroutines, routine.finished := by
  obtain ⟨total,spare⟩ : ∃ total, ∑ g in Finset.range sys.goroutines.length, fuel g = total := ⟨_,rfl⟩
  induction total using Nat.strong_induction_on generalizing sys fuel with
  | _ total ih =>
    by_cases done : ∀ routine ∈ sys.goroutines, routine.finished
    · exact ⟨[],sys,rfl,done⟩
    · push_neg at done
      obtain ⟨routine,mem,running⟩ := done
      obtain ⟨g,at_g⟩ := List.mem_iff_getElem?.mp mem
      obtain ⟨h,choice,next,stepped,-⟩ := running_enabled E fueled.lock fueled.owned at_g (by simpa using running)
      obtain ⟨n,spent,within,fueled'⟩ := fueled_run_step fueled stepped
      have lower := sum_update_spent within spent
      obtain ⟨more,final,ran,finished⟩ := ih _ (by rw [step_length stepped]; omega) fueled' rfl
      exact ⟨.run h choice :: more,final,by simp [System.run,stepped,ran],finished⟩

theorem fueled_start {sys : System} {m : GoMap String ListUnspentResult} (fresh : Fresh sys)
    (cached : sys.shared.unspent = some m)
    (start : ∀ routine ∈ sys.goroutines, routine = .sync .lock ∨ ∃ f amt address,
      routine = .craft f amt address .lockCoinSelect ∧ Fits E.weight f amt m.values ∧
        Fits E.weight f amt sys.shared.node.utxos) :
    Fueled E.weight m.values sys.shared.node.utxos sys fun _ => 2 * max m.len sys.shared.node.utxos.length + 15 := by
  refine ⟨sound_start fresh cached start,fun g r at_g => ?_⟩
  rcases start r (List.getElem?_mem at_g) with rfl | ⟨f,amt,address,rfl,-⟩
  exacts [show 4 ≤ _ by omega,show _ ≤ _ by simp]

end

theorem craftTransaction_schedules_bounded (E : Env) (sys last : System) (m : GoMap String ListUnspentResult)
    (events : List Event) (fresh : Fresh sys) (cached : sys.shared.unspent = some m)
    (start : ∀ routine ∈ sys.goroutines, routine = .sync .lock ∨ ∃ f amt address,
      routine = .craft f amt address .lockCoinSelect ∧ Fits E.weight f amt m.values ∧
        Fits E.weight f amt sys.shared.node.utxos)
    (ran : sys.run E events = some last) :
    (events.filter Event.isRun).length ≤ sys.goroutines.length * (2 * max m.len sys.shared.node.utxos.length + 15) := by
  obtain ⟨fuel,-,spent⟩ := fueled_run (fueled_start fresh cached start) ran
  rw [Finset.sum_const_nat fun _ _ => rfl,Finset.card_range] at spent
  omega

theorem craftTransaction_schedules_complete (E : Env) (sys last : System) (m : GoMap String ListUnspentResult)
    (events : List Event) (fresh : Fresh sys) (cached : sys.shared.unspent = some m)
    (start : ∀ routine ∈ sys.goroutines, routine = .sync .lock ∨ ∃ f amt address,
      routine = .craft f amt address .lockCoinSelect ∧ Fits E.weight f amt m.values ∧
        Fits E.weight f amt sys.shared.node.utxos)
    (ran : sys.run E events = some last) :
    ∃ more final, last.run E more = some final ∧ ∀ routine ∈ final.goroutines, routine.finished := by
  obtain ⟨fuel,fueled,-⟩ := fueled_run (fueled_start fresh cached start) ran
  exact fueled_complete fueled

-- The scenario's call runs to its return with every RPC succeeding, its
-- transaction is broadcast, and then syncUnspent runs to its return.
def syncedSchedule : List Event :=
  soloChoices.map (.run 0) ++ .broadcast 0 :: List.replicate 4 (.run 1 .ok)

-- Both goroutines of the synced scenario return after twenty steps, within
-- the 34 the bound allows a cache and a node of one output each.
theorem craftTransaction_schedules_bounded_scenario :
    ∃ last, Fresh syncedScenario ∧ syncedScenario.shared.unspent = some (unspentOf [⟨"aa",0,10,6⟩]) ∧
      (∀ routine ∈ syncedScenario.goroutines, routine = .sync .lock ∨ ∃ f amt address,
        routine = .craft f amt address .lockCoinSelect ∧ Fits (.linear 1 1) f amt (unspentOf [⟨"aa",0,10,6⟩]).values ∧
          Fits (.linear 1 1) f amt syncedScenario.shared.node.utxos) ∧
      syncedScenario.run scenarioEnv syncedSchedule = some last ∧
      last.goroutines.all Goroutine.finished ∧
      (syncedSchedule.filter Event.isRun).length ≤ syncedScenario.goroutines.length *
        (2 * max (unspentOf [⟨"aa",0,10,6⟩]).len syncedScenario.shared.node.utxos.length + 15) := by
  have fresh : Fresh syncedScenario := ⟨rfl,rfl,rfl,rfl,by decide⟩
  have ran : syncedScenario.run scenarioEnv syncedSchedule = some _ := rfl
  exact ⟨_,fresh,rfl,syncedScenario_begins,ran,rfl,
    craftTransaction_schedules_bounded _ _ _ _ _ fresh rfl syncedScenario_begins ran⟩

theorem craftTransaction_schedules_complete_scenario :
    ∃ last, Fresh syncedScenario ∧
      syncedScenario.run scenarioEnv [.run 0 .ok,.run 1 .ok,.run 0 .ok] = some last ∧
      last.goroutines = [.craft 1 5 "dest" .lockCache,.sync .list] ∧
      ∃ more final, last.run scenarioEnv more = some final ∧
        ∀ routine ∈ final.goroutines, routine.finished := by
  have fresh : Fresh syncedScenario := ⟨rfl,rfl,rfl,rfl,by decide⟩
  have ran : syncedScenario.run scenarioEnv [.run 0 .ok,.run 1 .ok,.run 0 .ok] = some _ := rfl
  exact ⟨_,fresh,ran,rfl,
    craftTransaction_schedules_complete _ _ _ _ _ fresh rfl syncedScenario_begins ran⟩

end Payserver.Bitcoind
