import Payserver.Craft
import Payserver.Provenance

namespace Payserver.Bitcoind

section
variable (W : P2PKHWeight) (f : UInt64) (amt : Int) (address : String) (cache0 utxos0 : List ListUnspentResult)

-- A selection coinSelect settles on over a cache of outputs from the start.
def Drawn (sel : Selection) : Prop :=
  ∃ m : GoMap String ListUnspentResult, (m.values.Sublist cache0 ∨ m.values.Sublist utxos0) ∧ Settles W f amt m (.ok sel)

-- The assertion at each point of a call among other goroutines: in coin
-- selection, the cache it holds and the fee amtNeeded already pays; after it,
-- the selection drawn and the transaction built from it.
def Priced (s : Shared) : CraftPc → Prop
  | .select _ amtNeeded => ∃ m c floor, s.unspent = some m ∧ NoOverflow W f amt m ∧
      (m.values.Sublist cache0 ∨ m.values.Sublist utxos0) ∧ amtNeeded = amt + c ∧ Progress W f m c floor
  | .unlockSelect (.ok sel) | .lockInput sel _ | .newAddress sel => Drawn W f amt cache0 utxos0 sel
  | .createRaw sel outputs => Drawn W f amt cache0 utxos0 sel ∧ ∃ changeAddr, outputs = outputsFor address amt sel changeAddr
  | .lockDelete sel tx | .delete sel tx | .unlockDelete sel tx => Drawn W f amt cache0 utxos0 sel ∧
      ∃ changeAddr, tx = ⟨sel.selectedUtxos.map (·.outPoint),outputsFor address amt sel changeAddr,0⟩
  | .returning (.ok (tx,fee)) | .done (.ok (tx,fee)) => ∃ sel changeAddr, Drawn W f amt cache0 utxos0 sel ∧
      fee = sel.requiredFee ∧ tx = ⟨sel.selectedUtxos.map (·.outPoint),outputsFor address amt sel changeAddr,0⟩
  | _ => True

end

section
variable {E : Env} {g : Nat} {f : UInt64} {amt : Int} {address : String} {cache0 utxos0 : List ListUnspentResult}

theorem priced_step {s s' : Shared} {pc pc' : CraftPc} {choice : Choice}
    (sized : pc = .lockSelect → ∃ m, s.unspent = some m ∧ NoOverflow E.weight f amt m ∧
      (m.values.Sublist cache0 ∨ m.values.Sublist utxos0))
    (priced : Priced E.weight f amt address cache0 utxos0 s pc)
    (stepped : craftStep E g f amt address s pc choice = some (s',pc')) :
    Priced E.weight f amt address cache0 utxos0 s' pc' := by
  cases craftStep_sound stepped with
  | lockSelect _ =>
    obtain ⟨m,current,bounded,drawn⟩ := sized rfl
    exact ⟨m,0,0,current,bounded,drawn,(add_zero amt).symm,progress_start⟩
  | selectRetry perm retried =>
    obtain ⟨m,c,floor,current,bounded,drawn,rfl,progress⟩ := priced
    rw [current] at perm
    rcases round_step bounded perm progress with ⟨r,ended,-⟩ | ⟨k,next,-,continued⟩
    · cases ended.symm.trans retried
    · cases continued.symm.trans retried
      exact ⟨m,_,k,current,bounded,drawn,rfl,next⟩
  | selectDone perm settled =>
    obtain ⟨m,c,floor,current,bounded,drawn,rfl,progress⟩ := priced
    rw [current] at perm
    rcases round_step bounded perm progress with ⟨r,ended,settles⟩ | ⟨k,-,-,continued⟩
    · injection ended.symm.trans settled with same
      subst same
      rcases r with err | sel
      exacts [trivial,⟨m,drawn,settles⟩]
    · cases continued.symm.trans settled
  | newAddressNoChange _ | newAddress _ => exact ⟨priced,_,rfl⟩
  | createRaw =>
    obtain ⟨drawn,changeAddr,rfl⟩ := priced
    exact ⟨drawn,changeAddr,rfl⟩
  | unlockDelete =>
    obtain ⟨drawn,changeAddr,rfl⟩ := priced
    exact ⟨_,changeAddr,drawn,rfl,rfl⟩
  | @returning result => rcases result with _ | ⟨tx,fee⟩ <;> exact priced
  | sync _ => unfold CraftPc.afterSync; split <;> (try split) <;> trivial
  -- every other step carries the selection, or leaves it for an error
  | _ => first | exact priced | trivial

theorem priced_frame {s s' : Shared} {pc : CraftPc} (priced : Priced E.weight f amt address cache0 utxos0 s pc)
    (keep : pc.holdsCache → s'.unspent = s.unspent) : Priced E.weight f amt address cache0 utxos0 s' pc := by
  cases pc
  case select =>
    obtain ⟨m,c,floor,current,rest⟩ := priced
    exact ⟨m,c,floor,(keep rfl).trans current,rest⟩
  case unlockSelect result => cases result <;> exact priced
  case returning result => rcases result with _ | ⟨tx,fee⟩ <;> exact priced
  case done result => rcases result with _ | ⟨tx,fee⟩ <;> exact priced
  all_goals exact priced

end

def Goroutine.Priced (W : P2PKHWeight) (cache0 utxos0 : List ListUnspentResult) (s : Shared) : Goroutine → Prop
  | .craft f amt address pc => Bitcoind.Priced W f amt address cache0 utxos0 s pc
  | _ => True

def AllPriced (W : P2PKHWeight) (cache0 utxos0 : List ListUnspentResult) (sys : System) : Prop :=
  ∀ (g : Nat) (routine : Goroutine), sys.goroutines[g]? = some routine → routine.Priced W cache0 utxos0 sys.shared

section
variable {E : Env} {cache0 utxos0 : List ListUnspentResult}

theorem allPriced_step {sys next : System} {event : Event} (sound : Sound E.weight cache0 utxos0 sys)
    (priced : AllPriced E.weight cache0 utxos0 sys) (stepped : sys.step E event = some next) :
    AllPriced E.weight cache0 utxos0 next := by
  -- every call keeps its assertion while the cache it holds stays
  have frame {s : Shared} (h : Nat) (r : Goroutine) (at_h : sys.goroutines[h]? = some r)
      (keep : r.holdsCache → s.unspent = sys.shared.unspent) :
      r.Priced E.weight cache0 utxos0 s := by
    cases r
    case craft => exact priced_frame (priced h _ at_h) keep
    all_goals trivial
  cases event with
  | broadcast g =>
    simp only [System.step] at stepped
    split at stepped <;> cases stepped
    exact fun h r at_h => frame h r at_h fun _ => rfl
  | run g choice =>
    cases at_g : sys.goroutines[g]? with
    | none => simp [System.step,at_g] at stepped
    | some routine =>
      obtain ⟨-,routine',ran,shape⟩ := step_run stepped at_g
      unfold AllPriced
      rw [shape]
      refine forall_set at_g ?_ fun h r other at_h => frame h r at_h (cache_kept sound.lock stepped other at_h)
      cases routine with
      | craft f amt address pc =>
        obtain ⟨pc',crafted,rfl⟩ := craft_step ran
        refine priced_step (fun _ => ?_) (priced g _ at_g) crafted
        obtain ⟨m,current,drawn,-,bounded⟩ := sound.sized at_g
        exact ⟨m,current,bounded,drawn⟩
      | sync =>
        obtain ⟨⟨s₁,after⟩,-,same⟩ := Option.map_eq_some'.mp ran
        cases after <;> cases same <;> trivial
      | synced => cases ran

theorem allPriced_run {sys last : System} {events : List Event} (sound : Sound E.weight cache0 utxos0 sys)
    (priced : AllPriced E.weight cache0 utxos0 sys) (ran : sys.run E events = some last) :
    AllPriced E.weight cache0 utxos0 last := by
  induction events generalizing sys with
  | nil => cases ran; exact priced
  | cons event rest ih =>
    obtain ⟨next,stepped,continued⟩ := Option.bind_eq_some.mp ran
    exact ih (sound_step sound stepped) (allPriced_step sound priced stepped) continued

end

def Goroutine.Answered (answered : String → Prop) : Goroutine → Prop
  | .craft _ _ _ pc => Bitcoind.Answered answered pc
  | _ => True

-- Every fresh address among the outputs of call g is one GetNewAddress gave g
-- in events.
def AllAnswered (events : List Event) (sys : System) : Prop :=
  ∀ (g : Nat) (routine : Goroutine), sys.goroutines[g]? = some routine →
    routine.Answered fun a => Event.run g (.address a) ∈ events

section
variable {E : Env}

theorem Goroutine.answered_mono {P Q : String → Prop} {routine : Goroutine} (held : routine.Answered P)
    (imp : ∀ a, P a → Q a) : routine.Answered Q := by
  cases routine
  case craft => exact Answered.mono held imp
  all_goals trivial

theorem allAnswered_step {hist : List Event} {sys next : System} {event : Event} (held : AllAnswered hist sys)
    (stepped : sys.step E event = some next) : AllAnswered (hist ++ [event]) next := by
  have later {h : Nat} {r : Goroutine} (at_h : sys.goroutines[h]? = some r) :
      r.Answered fun a => Event.run h (.address a) ∈ hist ++ [event] :=
    Goroutine.answered_mono (held h r at_h) fun _ earlier => List.mem_append_left _ earlier
  cases event with
  | broadcast g =>
    simp only [System.step] at stepped
    split at stepped <;> cases stepped
    exact fun h r at_h => later at_h
  | run g choice =>
    cases at_g : sys.goroutines[g]? with
    | none => simp [System.step,at_g] at stepped
    | some routine =>
      obtain ⟨-,routine',ran,shape⟩ := step_run stepped at_g
      unfold AllAnswered
      rw [shape]
      refine forall_set at_g ?_ fun h r _ at_h => later at_h
      cases routine with
      | craft f amt address pc =>
        obtain ⟨pc',crafted,rfl⟩ := craft_step ran
        refine Answered.mono (answered_step (held g _ at_g) crafted) fun a => ?_
        rintro (earlier | rfl)
        exacts [List.mem_append_left _ earlier,List.mem_append_right _ (List.mem_singleton_self _)]
      | sync =>
        obtain ⟨⟨s₁,after⟩,-,same⟩ := Option.map_eq_some'.mp ran
        cases after <;> cases same <;> trivial
      | synced => cases ran

theorem allAnswered_run {hist events : List Event} {sys last : System} (held : AllAnswered hist sys)
    (ran : sys.run E events = some last) : AllAnswered (hist ++ events) last := by
  induction events generalizing hist sys with
  | nil => cases ran; simpa using held
  | cons event rest ih =>
    obtain ⟨next,stepped,continued⟩ := Option.bind_eq_some.mp ran
    simpa using ih (allAnswered_step held stepped) continued

end

theorem craftTransaction_returns_balanced (E : Env) (sys last : System) (m : GoMap String ListUnspentResult)
    (events : List Event) (fresh : Fresh sys) (cached : sys.shared.unspent = some m)
    (start : ∀ routine ∈ sys.goroutines, routine = .sync .lock ∨ ∃ f amt address,
      routine = .craft f amt address .lockCoinSelect ∧ Fits E.weight f amt m.values ∧
        Fits E.weight f amt sys.shared.node.utxos)
    (ran : sys.run E events = some last) (g : Nat) (f : UInt64) (amt : Int) (address : String) (tx : MsgTx)
    (fee : Int) (done : last.goroutines[g]? = some (.craft f amt address (.done (.ok (tx,fee))))) :
    ∃ (sel : Selection) (changeAddr : String), (sel.selectedUtxos.Subperm m.values ∨ sel.selectedUtxos.Subperm sys.shared.node.utxos) ∧
      tx.inputs = sel.selectedUtxos.map (·.outPoint) ∧
      tx.outputs.entries =
        (.destination address,amt) :: (if sel.changeAmt = 0 then [] else [(.fresh changeAddr,sel.changeAmt)]) ∧
      (sel.changeAmt ≠ 0 → Event.run g (.address changeAddr) ∈ events) ∧
      fee = sel.requiredFee ∧ fee = E.weight.weight sel.selectedUtxos.length 2 * f.toNat ∧
      satoshi sel.selectedUtxos = amt + fee + sel.changeAmt ∧ 0 ≤ sel.changeAmt ∧
      satoshi sel.selectedUtxos - outputTotal tx.outputs = fee := by
  have sound := sound_start fresh cached start
  have beginning {g : Nat} {r : Goroutine} (at_g : sys.goroutines[g]? = some r) :
      r = .sync .lock ∨ ∃ f amt address, r = .craft f amt address .lockCoinSelect := by
    rcases start r (List.getElem?_mem at_g) with idle | ⟨f,amt,address,calling,-⟩
    exacts [.inl idle,.inr ⟨f,amt,address,calling⟩]
  have priced : AllPriced E.weight m.values sys.shared.node.utxos sys := fun g r at_g => by
    rcases beginning at_g with rfl | ⟨f,amt,address,rfl⟩ <;> trivial
  have answered : AllAnswered [] sys := fun g r at_g => by
    rcases beginning at_g with rfl | ⟨f,amt,address,rfl⟩
    exacts [trivial,fun _ built => nomatch built]
  have named := allAnswered_run answered ran g _ done
  obtain ⟨sel,changeAddr,⟨m',drawn,within,required,paid,change⟩,rfl,rfl⟩ := allPriced_run sound priced ran g _ done
  refine ⟨sel,changeAddr,drawn.imp (within.trans ·.subperm) (within.trans ·.subperm),rfl,outputsFor_entries _ _ _ _,
    fun nonzero => ?_,rfl,by simp [required,feeFor],by rw [paid],change,?_⟩
  · simpa using named _ rfl changeAddr sel.changeAmt (by simp [outputsFor_entries,nonzero])
  · rw [outputTotal_outputsFor]
    omega

-- The synced scenario's call, run to its return beside syncUnspent at its
-- Lock: it spends the one output aa, paying 5 to "dest", the change of 2 to
-- the address "change" GetNewAddress answered, and the fee of 3 at rate 1 for
-- one input and two outputs.
theorem craftTransaction_returns_balanced_scenario :
    ∃ last tx fee, Fresh syncedScenario ∧
      syncedScenario.run scenarioEnv (soloChoices.map (.run 0)) = some last ∧
      last.goroutines[0]? = some (.craft 1 5 "dest" (.done (.ok (tx,fee)))) ∧ fee = 3 ∧
      ∃ (sel : Selection) (changeAddr : String), (sel.selectedUtxos.Subperm (unspentOf [⟨"aa",0,10,6⟩]).values ∨
          sel.selectedUtxos.Subperm syncedScenario.shared.node.utxos) ∧
        tx.inputs = sel.selectedUtxos.map (·.outPoint) ∧
        tx.outputs.entries =
          (.destination "dest",5) :: (if sel.changeAmt = 0 then [] else [(.fresh changeAddr,sel.changeAmt)]) ∧
        (sel.changeAmt ≠ 0 → Event.run 0 (.address changeAddr) ∈ soloChoices.map (.run 0)) ∧
        fee = sel.requiredFee ∧ fee = (P2PKHWeight.linear 1 1).weight sel.selectedUtxos.length 2 * (1 : UInt64).toNat ∧
        satoshi sel.selectedUtxos = 5 + fee + sel.changeAmt ∧ 0 ≤ sel.changeAmt ∧
        satoshi sel.selectedUtxos - outputTotal tx.outputs = fee := by
  have fresh : Fresh syncedScenario := ⟨rfl,rfl,rfl,rfl,by decide⟩
  have ran : syncedScenario.run scenarioEnv (soloChoices.map (.run 0)) = some _ := rfl
  exact ⟨_,_,_,fresh,ran,rfl,rfl,
    craftTransaction_returns_balanced _ _ _ _ _ fresh rfl syncedScenario_begins ran 0 1 5 "dest" _ _ rfl⟩

end Payserver.Bitcoind
