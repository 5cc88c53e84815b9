import Payserver.Goroutines

namespace Payserver.Bitcoind

-- craftTransaction over a nil cache with every RPC succeeding: after the
-- inline syncUnspent has released unspentSyncMtx, line 135 unlocks it again.
-- Alone, that Unlock stops the process; with a syncUnspent goroutine that has
-- just locked the mutex, it releases that goroutine's hold, and the craft then
-- locks it for coin selection while the other still lists and fills the cache.
theorem craftTransaction_unlocks_unheld_mutex (E : Env) :
    (System.run E ⟨⟨none,none,none,⟨[],[]⟩,false⟩,[.craft 0 1 "dest" .lockCoinSelect]⟩
        (List.replicate 9 (.run 0 .ok))).map (fun sys => (sys.goroutines,sys.shared.unspentSyncMtx)) =
      some ([.craft 0 1 "dest" .unlockCache],none) ∧
    (System.run E ⟨⟨none,none,none,⟨[],[]⟩,false⟩,[.craft 0 1 "dest" .lockCoinSelect]⟩
        (List.replicate 10 (.run 0 .ok))).map (·.shared.fatal) = some true ∧
    (System.run E ⟨⟨none,none,none,⟨[],[]⟩,false⟩,[.craft 0 1 "dest" .lockCoinSelect,.sync .lock]⟩
        (List.replicate 9 (.run 0 .ok) ++ [.run 1 .ok])).map (fun sys => (sys.goroutines,sys.shared.unspentSyncMtx)) =
      some ([.craft 0 1 "dest" .unlockCache,.sync .list],some 1) ∧
    (System.run E ⟨⟨none,none,none,⟨[],[]⟩,false⟩,[.craft 0 1 "dest" .lockCoinSelect,.sync .lock]⟩
        (List.replicate 9 (.run 0 .ok) ++ [.run 1 .ok,.run 0 .ok,.run 0 .ok])).map
        (fun sys => (sys.goroutines,sys.shared.unspentSyncMtx)) =
      some ([.craft 0 1 "dest" (.select 0 1),.sync .list],some 0) :=
  ⟨rfl,rfl,rfl,rfl⟩

-- Where a goroutine holds each mutex: from its Lock to its Unlock.
def SyncPc.holdsCache : SyncPc → Bool
  | .lock => false
  | _ => true

def CraftPc.holdsCache : CraftPc → Bool
  | .checkNil | .unlockNil | .unlockCache | .select _ _ | .unlockSelect _ | .delete _ _ | .unlockDelete _ _ => true
  | .sync pc => pc.holdsCache
  | _ => false

def CraftPc.holdsCoinSelect : CraftPc → Bool
  | .lockCoinSelect | .done _ => false
  | _ => true

-- The branch taken on a nil c.unspent.
def CraftPc.nilPath : CraftPc → Bool
  | .unlockNil | .sync _ => true
  | _ => false

def Goroutine.holdsCache : Goroutine → Bool
  | .craft _ _ _ pc => pc.holdsCache
  | .sync pc => pc.holdsCache
  | .synced _ => false

def Goroutine.holdsCoinSelect : Goroutine → Bool
  | .craft _ _ _ pc => pc.holdsCoinSelect
  | _ => false

def Goroutine.nilPath : Goroutine → Bool
  | .craft _ _ _ pc => pc.nilPath
  | _ => false

theorem Shared.unlockUnspentSync_held {s : Shared} {g : Nat} (held : s.unspentSyncMtx = some g) :
    s.unlockUnspentSync = {s with unspentSyncMtx := none} := by
  simp [Shared.unlockUnspentSync,held]

theorem Shared.unlockUnspentSync_free {s : Shared} (free : s.unspentSyncMtx = none) :
    s.unlockUnspentSync = {s with fatal := true} := by
  simp [Shared.unlockUnspentSync,free]

theorem Shared.unlockCoinSelect_held {s : Shared} {g : Nat} (held : s.coinSelectMtx = some g) :
    s.unlockCoinSelect = {s with coinSelectMtx := none} := by
  simp [Shared.unlockCoinSelect,held]

-- A mutex that went from `before` to `after` in a step of goroutine g, which
-- now holds it or not as `holds` says: every other goroutine's hold is as it was.
def Moved (holds : Bool) (before after : Option Nat) (g : Nat) : Prop :=
  (holds ↔ after = some g) ∧ ∀ h, h ≠ g → (after = some h ↔ before = some h)

theorem moved_stay {holds : Bool} {mtx : Option Nat} {g : Nat} (held : holds ↔ mtx = some g) :
    Moved holds mtx mtx g := ⟨held,fun _ _ => Iff.rfl⟩

theorem moved_lock {mtx : Option Nat} {g : Nat} (free : mtx = none) : Moved true mtx (some g) g :=
  ⟨by simp,fun h other => by simp [free,Ne.symm other]⟩

theorem moved_unlock {mtx : Option Nat} {g : Nat} (held : mtx = some g) : Moved false mtx none g :=
  ⟨by simp,fun h other => by simp [held,Ne.symm other]⟩

section
variable {E : Env} {g : Nat} {f : UInt64} {amt : Int} {address : String} {s s' : Shared} {choice : Choice}

theorem craftStep_moves {pc pc' : CraftPc} (stepped : craftStep E g f amt address s pc choice = some (s',pc'))
    (cached : s.unspent.isSome) (onPath : pc.nilPath = false)
    (cache : pc.holdsCache ↔ s.unspentSyncMtx = some g) (coinSelect : pc.holdsCoinSelect ↔ s.coinSelectMtx = some g) :
    s'.unspent.isSome ∧ s'.fatal = s.fatal ∧ pc'.nilPath = false ∧
      Moved pc'.holdsCache s.unspentSyncMtx s'.unspentSyncMtx g ∧
      Moved pc'.holdsCoinSelect s.coinSelectMtx s'.coinSelectMtx g := by
  have stay := moved_stay cache
  have stayCoinSelect := moved_stay coinSelect
  cases craftStep_sound stepped with
  | unlockNil | sync _ => simp [CraftPc.nilPath] at onPath
  | checkNilNil nil => simp [nil] at cached
  | lockCache free | lockSelect free | lockDelete free => exact ⟨cached,rfl,rfl,moved_lock free,stayCoinSelect⟩
  | lockCoinSelect free => exact ⟨cached,rfl,rfl,stay,moved_lock free⟩
  | unlockCache | unlockSelectError | unlockSelect | unlockDelete =>
    rw [Shared.unlockUnspentSync_held (cache.mp rfl)]
    exact ⟨cached,rfl,rfl,moved_unlock (cache.mp rfl),stayCoinSelect⟩
  | returning =>
    rw [Shared.unlockCoinSelect_held (coinSelect.mp rfl)]
    exact ⟨cached,rfl,rfl,stay,moved_unlock (coinSelect.mp rfl)⟩
  | delete => exact ⟨by simpa using cached,rfl,rfl,stay,stayCoinSelect⟩
  | _ => exact ⟨cached,rfl,rfl,stay,stayCoinSelect⟩

theorem syncStep_moves {pc : SyncPc} {routine' : Goroutine}
    (stepped : (Goroutine.sync pc).step E g s choice = some (s',routine')) (cached : s.unspent.isSome)
    (cache : pc.holdsCache ↔ s.unspentSyncMtx = some g) (coinSelect : false ↔ s.coinSelectMtx = some g) :
    s'.unspent.isSome ∧ s'.fatal = s.fatal ∧ routine'.nilPath = false ∧
      Moved routine'.holdsCache s.unspentSyncMtx s'.unspentSyncMtx g ∧
      Moved routine'.holdsCoinSelect s.coinSelectMtx s'.coinSelectMtx g := by
  obtain ⟨⟨s,next⟩,ran,same⟩ := Option.map_eq_some'.mp stepped
  cases same
  cases pc <;> simp only [syncStep] at ran
  case lock =>
    split at ran <;> cases ran
    exact ⟨cached,rfl,rfl,moved_lock ‹_›,moved_stay coinSelect⟩
  case list =>
    split at ran <;> cases ran <;> exact ⟨cached,rfl,rfl,moved_stay cache,moved_stay coinSelect⟩
  case fill =>
    cases ran
    exact ⟨rfl,rfl,rfl,moved_stay cache,moved_stay coinSelect⟩
  case unlock =>
    rw [Shared.unlockUnspentSync_held (cache.mp rfl)] at ran
    cases ran
    exact ⟨cached,rfl,rfl,moved_unlock (cache.mp rfl),moved_stay coinSelect⟩

end

-- The lock discipline: c.unspent is non-nil, the process runs, each mutex is
-- held by exactly the goroutine inside its critical section, and no call is
-- on the nil branch.
structure LockInv (sys : System) : Prop where
  cached : sys.shared.unspent.isSome
  live : sys.shared.fatal = false
  cache : ∀ (g : Nat) (routine : Goroutine), sys.goroutines[g]? = some routine →
    (routine.holdsCache ↔ sys.shared.unspentSyncMtx = some g)
  coinSelect : ∀ (g : Nat) (routine : Goroutine), sys.goroutines[g]? = some routine →
    (routine.holdsCoinSelect ↔ sys.shared.coinSelectMtx = some g)
  nonNil : ∀ (g : Nat) (routine : Goroutine), sys.goroutines[g]? = some routine → routine.nilPath = false

theorem lockInv_move {sys next : System} {g : Nat} {routine routine' : Goroutine}
    (inv : LockInv sys) (at_g : sys.goroutines[g]? = some routine)
    (shape : next.goroutines = sys.goroutines.set g routine')
    (cached : next.shared.unspent.isSome) (live : next.shared.fatal = false) (nonNil : routine'.nilPath = false)
    (cache : Moved routine'.holdsCache sys.shared.unspentSyncMtx next.shared.unspentSyncMtx g)
    (coinSelect : Moved routine'.holdsCoinSelect sys.shared.coinSelectMtx next.shared.coinSelectMtx g) :
    LockInv next := by
  refine ⟨cached,live,?_,?_,?_⟩ <;> rw [shape]
  · exact forall_set at_g cache.1 fun h r other at_h => (inv.cache h r at_h).trans (cache.2 h other).symm
  · exact forall_set at_g coinSelect.1 fun h r other at_h => (inv.coinSelect h r at_h).trans (coinSelect.2 h other).symm
  · exact forall_set at_g nonNil fun h r _ at_h => inv.nonNil h r at_h

theorem routine_moves {E : Env} {sys : System} {g : Nat} {routine routine' : Goroutine} {s' : Shared}
    {choice : Choice} (inv : LockInv sys) (at_g : sys.goroutines[g]? = some routine)
    (ran : routine.step E g sys.shared choice = some (s',routine')) :
    s'.unspent.isSome ∧ s'.fatal = sys.shared.fatal ∧ routine'.nilPath = false ∧
      Moved routine'.holdsCache sys.shared.unspentSyncMtx s'.unspentSyncMtx g ∧
      Moved routine'.holdsCoinSelect sys.shared.coinSelectMtx s'.coinSelectMtx g := by
  cases routine with
  | craft f amt address pc =>
    obtain ⟨pc',crafted,rfl⟩ := craft_step ran
    exact craftStep_moves crafted inv.cached (inv.nonNil g _ at_g) (inv.cache g _ at_g) (inv.coinSelect g _ at_g)
  | sync pc => exact syncStep_moves ran inv.cached (inv.cache g _ at_g) (inv.coinSelect g _ at_g)
  | synced => cases ran

theorem lockInv_step {E : Env} {sys next : System} {event : Event} (inv : LockInv sys)
    (stepped : sys.step E event = some next) : LockInv next := by
  cases event with
  | broadcast g =>
    simp only [System.step] at stepped
    split at stepped <;> cases stepped
    exact ⟨inv.cached,inv.live,inv.cache,inv.coinSelect,inv.nonNil⟩
  | run g choice =>
    cases at_g : sys.goroutines[g]? with
    | none => simp [System.step,at_g] at stepped
    | some routine =>
      obtain ⟨-,routine',ran,shape⟩ := step_run stepped at_g
      obtain ⟨cached,fatal,nonNil,cache,coinSelect⟩ := routine_moves inv at_g ran
      exact lockInv_move inv at_g shape cached (fatal.trans inv.live) nonNil cache coinSelect

theorem lockInv_reaches {E : Env} {sys last : System} (inv : LockInv sys) (reaches : Reaches E sys last) :
    LockInv last := by
  induction reaches with
  | refl => exact inv
  | step _ stepped _ ih => exact ih (lockInv_step inv stepped)

-- A start outside every critical section with c.unspent already synced.
structure Fresh (sys : System) : Prop where
  cached : sys.shared.unspent.isSome
  live : sys.shared.fatal = false
  cacheFree : sys.shared.unspentSyncMtx = none
  coinSelectFree : sys.shared.coinSelectMtx = none
  outside : ∀ routine ∈ sys.goroutines, routine.holdsCache = false ∧ routine.holdsCoinSelect = false ∧
    routine.nilPath = false

theorem fresh_lockInv {sys : System} (fresh : Fresh sys) : LockInv sys := by
  have outside g routine (at_g : sys.goroutines[g]? = some routine) := fresh.outside routine (List.getElem?_mem at_g)
  refine ⟨fresh.cached,fresh.live,fun g r at_g => ?_,fun g r at_g => ?_,fun g r at_g => (outside g r at_g).2.2⟩
  · simp [fresh.cacheFree,(outside g r at_g).1]
  · simp [fresh.coinSelectFree,(outside g r at_g).2.1]

theorem craftTransaction_mutex_discipline (E : Env) (sys last : System) (fresh : Fresh sys)
    (reaches : Reaches E sys last) :
    last.shared.fatal = false ∧
      ∀ (g : Nat) (routine : Goroutine), last.goroutines[g]? = some routine →
        (routine.holdsCache ↔ last.shared.unspentSyncMtx = some g) ∧
        (routine.holdsCoinSelect ↔ last.shared.coinSelectMtx = some g) := by
  have inv := lockInv_reaches (fresh_lockInv fresh) reaches
  exact ⟨inv.live,fun g routine at_g => ⟨inv.cache g routine at_g,inv.coinSelect g routine at_g⟩⟩

-- A craftTransaction call and a syncUnspent call over a cache synced with one output.
def syncedScenario : System :=
  ⟨⟨some (unspentOf [⟨"aa",0,10,6⟩]),none,none,⟨[⟨"aa",0,10,6⟩],[]⟩,false⟩,[.craft 1 5 "dest" .lockCoinSelect,.sync .lock]⟩

theorem craftTransaction_mutex_discipline_scenario :
    Fresh syncedScenario ∧ ∃ last, Reaches scenarioEnv syncedScenario last ∧
      last.shared.fatal = false ∧
      ∀ (g : Nat) (routine : Goroutine), last.goroutines[g]? = some routine →
        (routine.holdsCache ↔ last.shared.unspentSyncMtx = some g) ∧
        (routine.holdsCoinSelect ↔ last.shared.coinSelectMtx = some g) := by
  have fresh : Fresh syncedScenario := ⟨rfl,rfl,rfl,rfl,by decide⟩
  obtain ⟨last,ran⟩ : ∃ last, syncedScenario.run scenarioEnv
      [.run 0 .ok,.run 1 .ok,.run 0 .ok,.run 1 .ok,.run 1 .ok,.run 1 .ok,.run 0 .ok,.run 0 .ok] = some last := ⟨_,rfl⟩
  exact ⟨fresh,last,run_reaches ran,craftTransaction_mutex_discipline _ _ _ fresh (run_reaches ran)⟩

-- The assertion at each point of a call that found c.unspent nil and runs
-- alone: the branch of lines 128-135 with the hold of unspentSyncMtx it
-- has there, then the process stopped by the Unlock of line 135, or the
-- error return of line 122 or 132.
def NilBranch (g : Nat) (s : Shared) : CraftPc → Prop
  | .lockCoinSelect | .unlockAll | .lockCache | .sync .lock => s.unspent = none ∧ s.unspentSyncMtx = none
  | .checkNil | .unlockNil | .sync .list | .sync (.fill _) => s.unspent = none ∧ s.unspentSyncMtx = some g
  | .sync (.unlock _) => s.unspentSyncMtx = some g
  | .unlockCache => s.unspentSyncMtx = none
  | .lockSelect => s.fatal = true
  | .returning r | .done r => r = .error .unlockUnspent ∨ r = .error .syncUnspent
  | _ => False

theorem nilBranch_step {E : Env} {g : Nat} {f : UInt64} {amt : Int} {address : String} {s s' : Shared}
    {pc pc' : CraftPc} {choice : Choice} (live : s.fatal = false) (branch : NilBranch g s pc)
    (stepped : craftStep E g f amt address s pc choice = some (s',pc')) : NilBranch g s' pc' := by
  cases craftStep_sound stepped with
  | lockCoinSelect _ | unlockAll | checkNilNil _ | returning => exact branch
  | unlockAllFail => exact .inl rfl
  | lockCache _ => exact ⟨branch.1,rfl⟩
  | checkNil cached => cases branch.1.symm.trans cached
  | unlockNil =>
    rw [Shared.unlockUnspentSync_held branch.2]
    exact ⟨branch.1,rfl⟩
  | @sync _ pc _ _ ran =>
    cases pc with
    | lock =>
      rw [syncStep,if_pos branch.2] at ran
      cases ran
      exact ⟨branch.1,rfl⟩
    | list =>
      simp only [syncStep] at ran
      split at ran <;> cases ran
      exacts [branch.2,branch]
    | fill => cases ran; exact branch.2
    | unlock listed =>
      cases ran
      rw [Shared.unlockUnspentSync_held branch]
      cases listed
      exacts [.inr rfl,rfl]
  -- the Unlock of line 135 finds the mutex free: the runtime stops the process
  | unlockCache =>
    rw [Shared.unlockUnspentSync_free branch]
    rfl
  | lockSelect _ => cases live.symm.trans branch
  | _ => exact branch.elim

theorem craftTransaction_nil_cache_never_selects (E : Env) (sys last : System) (g : Nat) (f : UInt64) (amt : Int)
    (address : String) (choices : List Choice)
    (start : sys.goroutines[g]? = some (.craft f amt address .lockCoinSelect))
    (nil : sys.shared.unspent = none) (free : sys.shared.unspentSyncMtx = none)
    (ran : sys.run E (choices.map (.run g)) = some last) :
    ∃ pc, last.goroutines[g]? = some (.craft f amt address pc) ∧ (∀ round amtNeeded, pc ≠ .select round amtNeeded) ∧
      (∀ r, pc = .done r → r = .error .unlockUnspent ∨ r = .error .syncUnspent) ∧
      (pc = .lockSelect → last.shared.fatal = true) := by
  obtain ⟨pc,at_g,branch⟩ := solo_run choices nilBranch_step start ⟨nil,free⟩ ran
  refine ⟨pc,at_g,?_,?_,?_⟩
  · rintro round amtNeeded rfl
    exact branch
  · rintro r rfl
    exact branch
  · rintro rfl
    exact branch

-- The call of the first scenario above, run for ten steps: the Unlock of
-- line 135 has stopped the process.
def nilCall : System := ⟨⟨none,none,none,⟨[],[]⟩,false⟩,[.craft 0 1 "dest" .lockCoinSelect]⟩

theorem craftTransaction_nil_cache_never_selects_scenario :
    ∃ last, nilCall.goroutines[0]? = some (.craft 0 1 "dest" .lockCoinSelect) ∧ nilCall.shared.unspent = none ∧
      nilCall.shared.unspentSyncMtx = none ∧
      nilCall.run scenarioEnv ((List.replicate 10 Choice.ok).map (.run 0)) = some last ∧
      last.goroutines[0]? = some (.craft 0 1 "dest" .lockSelect) ∧
      ∃ pc, last.goroutines[0]? = some (.craft 0 1 "dest" pc) ∧ (∀ round amtNeeded, pc ≠ .select round amtNeeded) ∧
        (∀ r, pc = .done r → r = .error .unlockUnspent ∨ r = .error .syncUnspent) ∧
        (pc = .lockSelect → last.shared.fatal = true) :=
  have ran : nilCall.run scenarioEnv ((List.replicate 10 Choice.ok).map (.run 0)) = some _ := rfl
  ⟨_,rfl,rfl,rfl,ran,rfl,craftTransaction_nil_cache_never_selects _ nilCall _ 0 0 1 "dest" _ rfl rfl rfl ran⟩

end Payserver.Bitcoind
