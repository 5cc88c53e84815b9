import Payserver.Craft
import Payserver.Deadlock

namespace Payserver.Bitcoind

section
variable (W : P2PKHWeight) (f : UInt64) (amt : Int) (N : Nat) (s : Shared)

-- The steps a call has left, at most, at each of its points, when the cache it
-- selects from has at most N entries: in coin selection the passes the loop
-- has left over the cache m it holds, past the `floor` inputs whose fee
-- amtNeeded already pays, at the input locks the inputs it has left.
def Budget (n : Nat) : CraftPc → Prop
  | .lockCoinSelect => 2 * N + 15 ≤ n
  | .unlockAll => 2 * N + 14 ≤ n
  | .lockCache => 2 * N + 13 ≤ n
  | .checkNil => 2 * N + 12 ≤ n
  | .unlockNil | .sync _ => False
  | .unlockCache => 2 * N + 11 ≤ n
  | .lockSelect => 2 * N + 10 ≤ n
  | .select _ amtNeeded => ∃ m c floor, s.unspent = some m ∧ NoOverflow W f amt m ∧ amtNeeded = amt + c ∧
      Progress W f m c floor ∧ 2 * m.len - floor + 9 ≤ n
  | .unlockSelect (.ok sel) => sel.selectedUtxos.length + 8 ≤ n
  | .unlockSelect (.error _) => 2 ≤ n
  | .lockInput sel i => sel.selectedUtxos.length - i + 7 ≤ n
  | .newAddress _ => 6 ≤ n
  | .createRaw _ _ => 5 ≤ n
  | .lockDelete _ _ => 4 ≤ n
  | .delete _ _ => 3 ≤ n
  | .unlockDelete _ _ => 2 ≤ n
  | .returning _ => 1 ≤ n
  | .done _ => True

end

theorem spend {j k n : Nat} (budget : k ≤ n) (lower : j < k) : ∃ n', n = n' + 1 ∧ j ≤ n' := ⟨n - 1,by omega,by omega⟩

theorem budget_step {E : Env} {g : Nat} {f : UInt64} {amt : Int} {address : String} {N : Nat}
    {s s' : Shared} {pc pc' : CraftPc} {choice : Choice} {n : Nat} (cached : pc = .checkNil → s.unspent.isSome)
    (sized : pc = .lockSelect → ∃ m, s.unspent = some m ∧ m.len ≤ N ∧ NoOverflow E.weight f amt m)
    (budget : Budget E.weight f amt N s n pc) (stepped : craftStep E g f amt address s pc choice = some (s',pc')) :
    ∃ n', n = n' + 1 ∧ Budget E.weight f amt N s' n' pc' := by
  cases craftStep_sound stepped with
  | checkNilNil nil => simp [nil] at cached
  | unlockNil | sync _ => exact budget.elim
  | lockSelect _ =>
    obtain ⟨m,current,size,bounded⟩ := sized rfl
    obtain ⟨n',rfl,spare⟩ := spend budget (show 2 * m.len - 0 + 9 < 2 * N + 10 by omega)
    exact ⟨n',rfl,m,0,0,current,bounded,(add_zero amt).symm,progress_start,spare⟩
  | selectRetry perm retried =>
    obtain ⟨m,c,floor,current,bounded,rfl,progress,spare⟩ := budget
    rw [current] at perm
    rcases round_step bounded perm progress with ⟨r,ended,-⟩ | ⟨k,next,above,continued⟩
    · cases ended.symm.trans retried
    · cases continued.symm.trans retried
      exact ⟨n - 1,by omega,m,_,k,current,bounded,rfl,next,by have := next.within; omega⟩
  | selectDone perm settled =>
    obtain ⟨m,c,floor,current,bounded,rfl,progress,spare⟩ := budget
    rw [current] at perm
    rcases round_step bounded perm progress with ⟨r,ended,settles⟩ | ⟨k,-,-,continued⟩
    · injection ended.symm.trans settled with same
      subst same
      have := progress.within
      rcases r with err | sel
      · exact spend spare (show 2 < 2 * m.len - floor + 9 by omega)
      · have : sel.selectedUtxos.length ≤ m.len := by simpa using settles.1.length_le
        exact spend spare (show sel.selectedUtxos.length + 8 < 2 * m.len - floor + 9 by omega)
    · cases continued.symm.trans settled
  | @lockInput sel i input at_i =>
    have := (List.getElem?_eq_some_iff.mp at_i).1
    exact spend budget (show sel.selectedUtxos.length - (i + 1) + 7 < sel.selectedUtxos.length - i + 7 by omega)
  | returning =>
    obtain ⟨n',rfl,-⟩ := spend budget (show 0 < 1 by omega)
    exact ⟨n',rfl,trivial⟩
  -- every other step moves to a point with a smaller fixed budget
  | _ => exact spend budget (by omega)

theorem step_length {E : Env} {sys next : System} {event : Event} (stepped : sys.step E event = some next) :
    next.goroutines.length = sys.goroutines.length := by
  cases event with
  | broadcast g =>
    simp only [System.step] at stepped
    split at stepped <;> cases stepped
    rfl
  | run g choice =>
    cases at_g : sys.goroutines[g]? with
    | none => simp [System.step,at_g] at stepped
    | some routine =>
      obtain ⟨-,routine',-,shape⟩ := step_run stepped at_g
      rw [shape,List.length_set]

theorem reaches_length {E : Env} {sys last : System} (reaches : Reaches E sys last) :
    last.goroutines.length = sys.goroutines.length := by
  induction reaches with
  | refl => rfl
  | step _ stepped _ ih => exact ih.trans (step_length stepped)

theorem free_of_alone {sys : System} {routine : Goroutine} {holds : Goroutine → Bool} {mtx : Option Nat}
    (alone : sys.goroutines = [routine]) (held : ∀ g r, sys.goroutines[g]? = some r → (holds r ↔ mtx = some g))
    (owned : ∀ h, mtx = some h → ∃ r, sys.goroutines[h]? = some r) (free : holds routine = false) : mtx = none := by
  cases taken : mtx with
  | none => rfl
  | some h =>
    obtain ⟨r,at_h⟩ := owned h taken
    have first : h = 0 := by
      have := (List.getElem?_eq_some_iff.mp at_h).1
      simp only [alone,List.length_singleton] at this
      omega
    subst first
    rw [alone] at at_h held
    cases at_h
    cases free.symm.trans ((held 0 routine rfl).mpr taken)

theorem Goroutine.locksCache_free {routine : Goroutine} (locks : routine.locksCache) : routine.holdsCache = false := by
  match routine with
  | .craft _ _ _ pc =>
    cases pc
    case sync pc => cases pc <;> first | rfl | cases locks
    all_goals first | rfl | cases locks
  | .sync pc => cases pc <;> first | rfl | cases locks
  | .synced _ => cases locks

theorem Goroutine.locksCoinSelect_free {routine : Goroutine} (locks : routine.locksCoinSelect) :
    routine.holdsCoinSelect = false := by
  match routine with
  | .craft _ _ _ pc => cases pc <;> first | rfl | cases locks
  | .sync _ | .synced _ => cases locks

theorem craftTransaction_solo_completes (E : Env) (s : Shared) (f : UInt64) (amt : Int) (address : String)
    (m : GoMap String ListUnspentResult) (choices : List Choice) (last : System) (cached : s.unspent = some m)
    (cacheFree : s.unspentSyncMtx = none) (coinSelectFree : s.coinSelectMtx = none) (live : s.fatal = false)
    (bounded : NoOverflow E.weight f amt m)
    (ran : System.run E ⟨s,[.craft f amt address .lockCoinSelect]⟩ (choices.map (.run 0)) = some last) :
    choices.length ≤ 2 * m.len + 15 ∧
      ((∃ r, last.goroutines = [.craft f amt address (.done r)]) ∨ ∃ choice next, last.step E (.run 0 choice) = some next) := by
  have spent {s s' : Shared} {pc pc' : CraftPc} {choice : Choice} {n : Nat} (_ : s.fatal = false)
      (held : Tracks E f amt address m s pc ∧ Budget E.weight f amt m.len s n pc)
      (stepped : craftStep E 0 f amt address s pc choice = some (s',pc')) :
      ∃ n', n = n' + 1 ∧ Tracks E f amt address m s' pc' ∧ Budget E.weight f amt m.len s' n' pc' := by
    -- alone, the call meets the cache m where it checks and selects
    have cached (at_pc : pc = .checkNil) : s.unspent.isSome := by
      subst at_pc
      exact Option.isSome_iff_exists.mpr ⟨m,held.1⟩
    have sized (at_pc : pc = .lockSelect) : ∃ m', s.unspent = some m' ∧ m'.len ≤ m.len ∧ NoOverflow E.weight f amt m' := by
      subst at_pc
      exact ⟨m,held.1,le_rfl,bounded⟩
    obtain ⟨n',rfl,budget⟩ := budget_step cached sized held.2 stepped
    exact ⟨n',rfl,tracks_step held.1 stepped,budget⟩
  have start : (System.mk s [.craft f amt address .lockCoinSelect]).goroutines[0]? =
      some (.craft f amt address .lockCoinSelect) := rfl
  refine ⟨solo_steps choices spent start (show Tracks E f amt address m s .lockCoinSelect ∧ _ from ⟨cached,le_rfl⟩) ran,?_⟩
  -- the call is the system's one goroutine, so it holds every held mutex
  obtain ⟨pc,at_0,-⟩ := solo_run choices (fun _ tracked stepped => tracks_step tracked stepped) start cached ran
  have fresh : Fresh ⟨s,[.craft f amt address .lockCoinSelect]⟩ :=
    ⟨by simp [cached],live,cacheFree,coinSelectFree,fun routine mem => by
      rw [List.mem_singleton.mp mem]
      exact ⟨rfl,rfl,rfl⟩⟩
  have reaches := run_reaches ran
  obtain ⟨inv,owned⟩ := owned_reaches (fresh_lockInv fresh)
    ⟨(fun h held => nomatch cacheFree.symm.trans held),(fun h held => nomatch coinSelectFree.symm.trans held)⟩ reaches
  have alone : last.goroutines = [.craft f amt address pc] := by
    have length := reaches_length reaches
    obtain ⟨routine,one⟩ := List.length_eq_one.mp length
    rw [one] at at_0 ⊢
    cases at_0
    rfl
  cases running : (Goroutine.craft f amt address pc).finished
  · exact .inr (run_enabled E inv.live at_0 running
      (fun locks => free_of_alone alone inv.cache owned.cache (Goroutine.locksCache_free locks))
      (fun locks => free_of_alone alone inv.coinSelect owned.coinSelect (Goroutine.locksCoinSelect_free locks)))
  · cases pc <;> simp [Goroutine.finished] at running
    exact .inl ⟨_,alone⟩

-- The call of the scenario of the cache effect runs its sixteen steps to its
-- return, within the 17 its one-entry cache allows.
theorem craftTransaction_solo_completes_scenario :
    ∃ last, soloStart.shared.unspent = some (unspentOf [⟨"aa",0,10,6⟩]) ∧ soloStart.shared.unspentSyncMtx = none ∧
      soloStart.shared.coinSelectMtx = none ∧ soloStart.shared.fatal = false ∧
      NoOverflow (.linear 1 1) 0 5 (unspentOf [⟨"aa",0,10,6⟩]) ∧
      System.run scenarioEnv ⟨soloStart.shared,[.craft 0 5 "dest" .lockCoinSelect]⟩
        (soloChoices.map (.run 0)) = some last ∧
      soloChoices.length ≤ 2 * (unspentOf [⟨"aa",0,10,6⟩]).len + 15 ∧
      ((∃ r, last.goroutines = [.craft 0 5 "dest" (.done r)]) ∨
        ∃ choice next, last.step scenarioEnv (.run 0 choice) = some next) :=
  have bounded : NoOverflow (.linear 1 1) 0 5 (unspentOf [⟨"aa",0,10,6⟩]) := ⟨by decide,by decide,by decide⟩
  have ran : System.run scenarioEnv ⟨soloStart.shared,[.craft 0 5 "dest" .lockCoinSelect]⟩
      (soloChoices.map (.run 0)) = some _ := rfl
  ⟨_,rfl,rfl,rfl,rfl,bounded,ran,
    craftTransaction_solo_completes _ _ 0 5 "dest" _ soloChoices _ rfl rfl rfl rfl bounded ran⟩

end Payserver.Bitcoind
