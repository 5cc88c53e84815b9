import Payserver.Spending

namespace Payserver.Bitcoind

-- A cache filled from a node holding one output aa of 10 satoshi, two calls
-- paying 5 and two syncUnspent goroutines. The first call spends aa, locks it
-- and deletes it from the cache. The second call's opening unlock-all releases
-- aa before anyone broadcasts the first transaction; the second syncUnspent
-- lists aa as unspent and unlocked, and the second call spends aa again.
theorem craftTransaction_double_spend :
    (System.run scenarioEnv
      ⟨⟨none,none,none,⟨[⟨"aa",0,10,6⟩],[]⟩,false⟩,
        [.sync .lock,.craft 0 5 "dest" .lockCoinSelect,.craft 0 5 "dest" .lockCoinSelect,.sync .lock]⟩
      (List.replicate 4 (.run 0 .ok) ++
        List.replicate 6 (.run 1 .ok) ++ [.run 1 (.range [⟨"aa",0,10,6⟩])] ++ List.replicate 3 (.run 1 .ok) ++
        [.run 1 (.address "c1")] ++ List.replicate 5 (.run 1 .ok) ++
        List.replicate 2 (.run 2 .ok) ++ List.replicate 4 (.run 3 .ok) ++
        List.replicate 4 (.run 2 .ok) ++ [.run 2 (.range [⟨"aa",0,10,6⟩])] ++ List.replicate 3 (.run 2 .ok) ++
        [.run 2 (.address "c2")] ++ List.replicate 5 (.run 2 .ok))).map returnedInputs =
    some [[⟨"aa",0⟩],[⟨"aa",0⟩]] := by
  decide

theorem craftTransaction_spends_once (E : Env) (sys last : System) (fresh : Fresh sys)
    (calls : ∀ routine ∈ sys.goroutines, ∃ f amt address, routine = .craft f amt address .lockCoinSelect)
    (keyed : ∀ cache, sys.shared.unspent = some cache → WellKeyed cache) (reaches : Reaches E sys last) :
    (returnedInputs last).flatten.Nodup ∧
      ∀ cache, last.shared.unspent = some cache →
        ∀ op ∈ (returnedInputs last).flatten, ∀ u ∈ cache.values, u.outPoint ≠ op := by
  have unspent (routine : Goroutine) (mem : routine ∈ sys.goroutines) : routine.spent = [] := by
    obtain ⟨f,amt,address,rfl⟩ := calls routine mem
    rfl
  have crafts (g : Nat) (routine : Goroutine) (at_g : sys.goroutines[g]? = some routine) : routine.isCraft := by
    obtain ⟨f,amt,address,rfl⟩ := calls routine (List.getElem?_mem at_g)
    rfl
  exact (spendInv_reaches (spendInv_start fresh keyed unspent)
    (reachesSpending_of_crafts (fresh_lockInv fresh) crafts reaches)).returned_once

def twoCalls : System :=
  ⟨⟨some (unspentOf [⟨"aa",0,10,6⟩,⟨"bb",0,10,6⟩]),none,none,⟨[⟨"aa",0,10,6⟩,⟨"bb",0,10,6⟩],[]⟩,false⟩,
    [.craft 1 5 "dest" .lockCoinSelect,.craft 1 5 "dest" .lockCoinSelect]⟩

-- Each call runs through: six steps to coin selection, the pass over `order`,
-- the input locks, a change address, and the steps to its return.
def callChoices (order : List ListUnspentResult) (changeAddr : String) : List Choice :=
  List.replicate 6 .ok ++ [.range order,.ok,.ok,.ok,.address changeAddr] ++ List.replicate 5 .ok

theorem craftTransaction_spends_once_scenario :
    Fresh twoCalls ∧ (∀ routine ∈ twoCalls.goroutines, ∃ f amt address, routine = .craft f amt address .lockCoinSelect) ∧
    (∀ cache, twoCalls.shared.unspent = some cache → WellKeyed cache) ∧
    ∃ last, Reaches scenarioEnv twoCalls last ∧ returnedInputs last = [[⟨"aa",0⟩],[⟨"bb",0⟩]] ∧
      (returnedInputs last).flatten.Nodup ∧
      ∀ cache, last.shared.unspent = some cache →
        ∀ op ∈ (returnedInputs last).flatten, ∀ u ∈ cache.values, u.outPoint ≠ op := by
  have fresh : Fresh twoCalls := ⟨rfl,rfl,rfl,rfl,by decide⟩
  have calls : ∀ routine ∈ twoCalls.goroutines, ∃ f amt address, routine = .craft f amt address .lockCoinSelect := by
    intro routine mem
    simp only [twoCalls,List.mem_cons,List.mem_singleton,List.not_mem_nil,or_false] at mem
    rcases mem with rfl | rfl <;> exact ⟨_,_,_,rfl⟩
  have keyed : ∀ cache, twoCalls.shared.unspent = some cache → WellKeyed cache := fun cache same => by
    simp only [twoCalls,Option.some.injEq] at same
    exact same ▸ wellKeyed_unspentOf _
  have ran : twoCalls.run scenarioEnv
      ((callChoices [⟨"aa",0,10,6⟩,⟨"bb",0,10,6⟩] "c0").map (.run 0) ++ (callChoices [⟨"bb",0,10,6⟩] "c1").map (.run 1)) =
      some _ := rfl
  exact ⟨fresh,calls,keyed,_,run_reaches ran,rfl,craftTransaction_spends_once _ _ _ fresh calls keyed (run_reaches ran)⟩

theorem craftTransaction_spends_once_syncing (E : Env) (sys last : System) (fresh : Fresh sys)
    (starting : ∀ routine ∈ sys.goroutines,
      routine = .sync .lock ∨ ∃ f amt address, routine = .craft f amt address .lockCoinSelect)
    (keyed : ∀ cache, sys.shared.unspent = some cache → WellKeyed cache) (reaches : ReachesSpending E sys last) :
    (returnedInputs last).flatten.Nodup ∧
      ∀ cache, last.shared.unspent = some cache →
        ∀ op ∈ (returnedInputs last).flatten, ∀ u ∈ cache.values, u.outPoint ≠ op := by
  have unspent (routine : Goroutine) (mem : routine ∈ sys.goroutines) : routine.spent = [] := by
    rcases starting routine mem with rfl | ⟨f,amt,address,rfl⟩ <;> rfl
  exact (spendInv_reaches (spendInv_start fresh keyed unspent) reaches).returned_once

-- A call, a syncUnspent and a second call over a synced cache of aa and bb. The
-- first call spends aa and its transaction is broadcast; the second call's
-- unlock-all then releases aa's lock, but the resync lists only bb, for aa is
-- spent at the node, and the second call spends bb.
def resyncCalls : System :=
  ⟨⟨some (unspentOf [⟨"aa",0,10,6⟩,⟨"bb",0,10,6⟩]),none,none,⟨[⟨"aa",0,10,6⟩,⟨"bb",0,10,6⟩],[]⟩,false⟩,
    [.craft 1 5 "dest" .lockCoinSelect,.sync .lock,.craft 1 5 "dest" .lockCoinSelect]⟩

def resyncSchedule : List Event :=
  (callChoices [⟨"aa",0,10,6⟩,⟨"bb",0,10,6⟩] "c0").map (.run 0) ++ [.broadcast 0] ++
    ((callChoices [⟨"bb",0,10,6⟩] "c2").take 2).map (.run 2) ++ List.replicate 4 (.run 1 .ok) ++
    ((callChoices [⟨"bb",0,10,6⟩] "c2").drop 2).map (.run 2)

theorem craftTransaction_spends_once_syncing_scenario :
    Fresh resyncCalls ∧
    (∀ routine ∈ resyncCalls.goroutines,
      routine = .sync .lock ∨ ∃ f amt address, routine = .craft f amt address .lockCoinSelect) ∧
    (∀ cache, resyncCalls.shared.unspent = some cache → WellKeyed cache) ∧
    ∃ last, ReachesSpending scenarioEnv resyncCalls last ∧
      returnedInputs last = [[⟨"aa",0⟩],[⟨"bb",0⟩]] ∧ (returnedInputs last).flatten.Nodup ∧
      ∀ cache, last.shared.unspent = some cache →
        ∀ op ∈ (returnedInputs last).flatten, ∀ u ∈ cache.values, u.outPoint ≠ op := by
  have fresh : Fresh resyncCalls := ⟨rfl,rfl,rfl,rfl,by decide⟩
  have starting : ∀ routine ∈ resyncCalls.goroutines,
      routine = .sync .lock ∨ ∃ f amt address, routine = .craft f amt address .lockCoinSelect := by
    intro routine mem
    simp only [resyncCalls,List.mem_cons,List.mem_singleton,List.not_mem_nil,or_false] at mem
    rcases mem with rfl | rfl | rfl
    · exact .inr ⟨_,_,_,rfl⟩
    · exact .inl rfl
    · exact .inr ⟨_,_,_,rfl⟩
  have keyed : ∀ cache, resyncCalls.shared.unspent = some cache → WellKeyed cache := fun cache same => by
    simp only [resyncCalls,Option.some.injEq] at same
    exact same ▸ wellKeyed_unspentOf _
  have ran : resyncCalls.run scenarioEnv resyncSchedule = some _ := rfl
  have reaches := run_reachesSpending ran (by decide)
  exact ⟨fresh,starting,keyed,_,reaches,rfl,
    craftTransaction_spends_once_syncing _ _ _ fresh starting keyed reaches⟩

end Payserver.Bitcoind
