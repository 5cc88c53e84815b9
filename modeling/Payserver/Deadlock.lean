import Payserver.Locking

namespace Payserver.Bitcoind

-- A goroutine that has returned: a call after its deferred Unlock, or a
-- syncUnspent.
def Goroutine.finished : Goroutine → Bool
  | .craft _ _ _ (.done _) | .synced _ => true
  | _ => false

-- The Lock a goroutine's next step blocks on: unspentSyncMtx at lines 127,
-- 140 and 196 and in syncUnspent at line 75, coinSelectMtx at line 111.
def CraftPc.locksCache : CraftPc → Bool
  | .lockCache | .lockSelect | .lockDelete _ _ => true
  | .sync pc => !pc.holdsCache
  | _ => false

def Goroutine.locksCache : Goroutine → Bool
  | .craft _ _ _ pc => pc.locksCache
  | .sync pc => !pc.holdsCache
  | .synced _ => false

def Goroutine.locksCoinSelect : Goroutine → Bool
  | .craft _ _ _ .lockCoinSelect => true
  | _ => false

theorem syncStep_enabled (E : Env) (g : Nat) {s : Shared} {pc : SyncPc}
    (free : !pc.holdsCache → s.unspentSyncMtx = none) : (syncStep E g s pc .fail).isSome := by
  cases pc <;> simp_all [syncStep,Choice.failed,SyncPc.holdsCache]

theorem routine_enabled (E : Env) (g : Nat) (s : Shared) {routine : Goroutine} (running : routine.finished = false)
    (cacheFree : routine.locksCache → s.unspentSyncMtx = none)
    (coinSelectFree : routine.locksCoinSelect → s.coinSelectMtx = none) :
    ∃ choice, (routine.step E g s choice).isSome := by
  cases routine with
  | synced => cases running
  | sync pc => exact ⟨.fail,by simpa [Goroutine.step] using syncStep_enabled E g cacheFree⟩
  | craft f amt address pc =>
    cases pc with
    | done => cases running
    | select round amtNeeded => exact ⟨.range (s.unspent.getD .empty).values,by simp [Goroutine.step,craftStep]⟩
    | sync pc => exact ⟨.fail,by simpa [Goroutine.step,craftStep] using syncStep_enabled E g cacheFree⟩
    | lockInput sel i =>
      refine ⟨.fail,?_⟩
      simp only [Goroutine.step,craftStep,Choice.failed,Option.isSome_map']
      split <;> (try split) <;> rfl
    | newAddress sel =>
      refine ⟨.fail,?_⟩
      simp only [Goroutine.step,craftStep,Option.isSome_map']
      split <;> rfl
    | lockCoinSelect => exact ⟨.fail,by simp [Goroutine.step,craftStep,coinSelectFree rfl]⟩
    | lockCache => exact ⟨.fail,by simp [Goroutine.step,craftStep,cacheFree rfl]⟩
    | lockSelect => exact ⟨.fail,by simp [Goroutine.step,craftStep,cacheFree rfl]⟩
    | lockDelete => exact ⟨.fail,by simp [Goroutine.step,craftStep,cacheFree rfl]⟩
    -- every other step is taken whatever the mutexes
    | _ => exact ⟨.fail,rfl⟩

theorem run_enabled (E : Env) {sys : System} {h : Nat} {routine : Goroutine} (live : sys.shared.fatal = false)
    (at_h : sys.goroutines[h]? = some routine) (running : routine.finished = false)
    (cacheFree : routine.locksCache → sys.shared.unspentSyncMtx = none)
    (coinSelectFree : routine.locksCoinSelect → sys.shared.coinSelectMtx = none) :
    ∃ choice next, sys.step E (.run h choice) = some next := by
  obtain ⟨choice,enabled⟩ := routine_enabled E h sys.shared running cacheFree coinSelectFree
  obtain ⟨⟨s,routine'⟩,stepped⟩ := Option.isSome_iff_exists.mp enabled
  exact ⟨choice,⟨s,sys.goroutines.set h routine'⟩,by simp [System.step,live,at_h,stepped]⟩

theorem holdsCache_not_waiting {routine : Goroutine} (holds : routine.holdsCache) :
    routine.finished = false ∧ routine.locksCache = false ∧ routine.locksCoinSelect = false := by
  match routine with
  | .craft _ _ _ pc =>
    cases pc
    case sync pc => cases pc <;> first | exact ⟨rfl,rfl,rfl⟩ | cases holds
    all_goals first | exact ⟨rfl,rfl,rfl⟩ | cases holds
  | .sync pc => cases pc <;> first | exact ⟨rfl,rfl,rfl⟩ | cases holds
  | .synced _ => cases holds

theorem holdsCoinSelect_not_waiting {routine : Goroutine} (holds : routine.holdsCoinSelect) :
    routine.finished = false ∧ routine.locksCoinSelect = false := by
  match routine with
  | .craft _ _ _ pc => cases pc <;> first | exact ⟨rfl,rfl⟩ | cases holds
  | .sync _ | .synced _ => cases holds

-- Each held mutex is held by a goroutine of the system.
structure Owned (sys : System) : Prop where
  cache : ∀ h, sys.shared.unspentSyncMtx = some h → ∃ routine, sys.goroutines[h]? = some routine
  coinSelect : ∀ h, sys.shared.coinSelectMtx = some h → ∃ routine, sys.goroutines[h]? = some routine

theorem owned_moved {routines : List Goroutine} {g : Nat} {routine routine' : Goroutine} {holds : Bool}
    {before after : Option Nat} (at_g : routines[g]? = some routine) (moved : Moved holds before after g)
    (owned : ∀ h, before = some h → ∃ r, routines[h]? = some r) :
    ∀ h, after = some h → ∃ r, (routines.set g routine')[h]? = some r := by
  intro h held
  by_cases same : h = g
  · subst same
    exact ⟨routine',getElem?_set_at at_g⟩
  · obtain ⟨r,at_h⟩ := owned h ((moved.2 h same).mp held)
    exact ⟨r,(List.getElem?_set_ne (Ne.symm same)).trans at_h⟩

theorem owned_step {E : Env} {sys next : System} {event : Event} (inv : LockInv sys) (owned : Owned sys)
    (stepped : sys.step E event = some next) : Owned next := by
  cases event with
  | broadcast g =>
    simp only [System.step] at stepped
    split at stepped <;> cases stepped
    exact ⟨owned.cache,owned.coinSelect⟩
  | run g choice =>
    cases at_g : sys.goroutines[g]? with
    | none => simp [System.step,at_g] at stepped
    | some routine =>
      obtain ⟨-,routine',ran,shape⟩ := step_run stepped at_g
      obtain ⟨-,-,-,cache,coinSelect⟩ := routine_moves inv at_g ran
      refine ⟨?_,?_⟩ <;> rw [shape]
      exacts [owned_moved at_g cache owned.cache,owned_moved at_g coinSelect owned.coinSelect]

theorem owned_reaches {E : Env} {sys last : System} (inv : LockInv sys) (owned : Owned sys)
    (reaches : Reaches E sys last) : LockInv last ∧ Owned last := by
  induction reaches with
  | refl => exact ⟨inv,owned⟩
  | step _ stepped _ ih => exact ih (lockInv_step inv stepped) (owned_step inv owned stepped)

theorem fresh_owned {sys : System} (fresh : Fresh sys) : Owned sys :=
  ⟨(fun _ held => nomatch fresh.cacheFree.symm.trans held),(fun _ held => nomatch fresh.coinSelectFree.symm.trans held)⟩

theorem running_enabled (E : Env) {last : System} (inv : LockInv last) (owned : Owned last) {g : Nat}
    {routine : Goroutine} (at_g : last.goroutines[g]? = some routine) (running : routine.finished = false) :
    ∃ h choice next, last.step E (.run h choice) = some next ∧
      (h = g ∨ last.shared.unspentSyncMtx = some h ∨ last.shared.coinSelectMtx = some h) := by
  cases cache : last.shared.unspentSyncMtx with
  | some h =>
    -- the holder of unspentSyncMtx waits for no Lock
    obtain ⟨r,at_h⟩ := owned.cache h cache
    obtain ⟨running',waitsCache,waitsCoinSelect⟩ := holdsCache_not_waiting ((inv.cache h r at_h).mpr cache)
    obtain ⟨choice,next,stepped⟩ :=
      run_enabled E inv.live at_h running' (by simp [waitsCache]) (by simp [waitsCoinSelect])
    exact ⟨h,choice,next,stepped,.inr (.inl rfl)⟩
  | none =>
    cases coinSelect : last.shared.coinSelectMtx with
    | some h =>
      -- the holder of coinSelectMtx waits for no Lock but unspentSyncMtx's, which is free
      obtain ⟨r,at_h⟩ := owned.coinSelect h coinSelect
      obtain ⟨running',waits⟩ := holdsCoinSelect_not_waiting ((inv.coinSelect h r at_h).mpr coinSelect)
      obtain ⟨choice,next,stepped⟩ := run_enabled E inv.live at_h running' (fun _ => cache) (by simp [waits])
      exact ⟨h,choice,next,stepped,.inr (.inr rfl)⟩
    | none =>
      obtain ⟨choice,next,stepped⟩ := run_enabled E inv.live at_g running (fun _ => cache) (fun _ => coinSelect)
      exact ⟨g,choice,next,stepped,.inl rfl⟩

theorem craftTransaction_deadlock_free (E : Env) (sys last : System) (fresh : Fresh sys)
    (reaches : Reaches E sys last) (g : Nat) (routine : Goroutine) (at_g : last.goroutines[g]? = some routine)
    (running : routine.finished = false) :
    ∃ h choice next, last.step E (.run h choice) = some next ∧
      (h = g ∨ last.shared.unspentSyncMtx = some h ∨ last.shared.coinSelectMtx = some h) := by
  obtain ⟨inv,owned⟩ := owned_reaches (fresh_lockInv fresh) (fresh_owned fresh) reaches
  exact running_enabled E inv owned at_g running

-- The call of the scenario above at its Lock of line 127, while syncUnspent
-- holds unspentSyncMtx and lists: the call waits, and syncUnspent steps.
theorem craftTransaction_deadlock_free_scenario :
    Fresh syncedScenario ∧ ∃ last, Reaches scenarioEnv syncedScenario last ∧
      last.goroutines[0]? = some (.craft 1 5 "dest" .lockCache) ∧ last.shared.unspentSyncMtx = some 1 ∧
      (Goroutine.craft 1 5 "dest" .lockCache).finished = false ∧
      ∃ h choice next, last.step scenarioEnv (.run h choice) = some next ∧
        (h = 0 ∨ last.shared.unspentSyncMtx = some h ∨ last.shared.coinSelectMtx = some h) := by
  have fresh : Fresh syncedScenario := ⟨rfl,rfl,rfl,rfl,by decide⟩
  have ran : syncedScenario.run scenarioEnv [.run 0 .ok,.run 1 .ok,.run 0 .ok] = some _ := rfl
  exact ⟨fresh,_,run_reaches ran,rfl,rfl,rfl,
    craftTransaction_deadlock_free _ _ _ fresh (run_reaches ran) 0 _ rfl rfl⟩

end Payserver.Bitcoind
