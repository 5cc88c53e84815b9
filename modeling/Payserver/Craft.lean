import Payserver.Goroutines

namespace Payserver.Bitcoind

def amountSum : List Int → Int
  | [] => 0
  | a :: rest => a + amountSum rest

def outputTotal (outputs : GoMap Address Int) : Int := amountSum outputs.values

theorem outputTotal_outputsFor (address changeAddr : String) (amt : Int) (sel : Selection) :
    outputTotal (outputsFor address amt sel changeAddr) = amt + sel.changeAmt := by
  by_cases zero : sel.changeAmt = 0 <;> simp [outputTotal,GoMap.values,outputsFor_entries,amountSum,zero]

-- The outputs map a call holds from CreateRawTransaction's arguments on.
def CraftPc.outputs : CraftPc → Option (GoMap Address Int)
  | .createRaw _ outputs => some outputs
  | .lockDelete _ tx | .delete _ tx | .unlockDelete _ tx | .returning (.ok (tx,_)) | .done (.ok (tx,_)) => some tx.outputs
  | _ => none

-- Every fresh address among a call's outputs satisfies answered.
def Answered (answered : String → Prop) (pc : CraftPc) : Prop :=
  ∀ outputs, pc.outputs = some outputs → ∀ a v, (Address.fresh a,v) ∈ outputs.entries → answered a

theorem Answered.mono {P Q : String → Prop} {pc : CraftPc} (held : Answered P pc) (imp : ∀ a, P a → Q a) :
    Answered Q pc :=
  fun outputs built a v mem => imp a (held outputs built a v mem)

section
variable {E : Env} {g : Nat} {f : UInt64} {amt : Int} {address : String}

theorem outputs_step {s s' : Shared} {pc pc' : CraftPc} {choice : Choice}
    (stepped : craftStep E g f amt address s pc choice = some (s',pc')) :
    pc'.outputs = none ∨ pc'.outputs = pc.outputs ∨ ∃ sel, pc = .newAddress sel := by
  cases craftStep_sound stepped with
  | newAddressNoChange _ | newAddress _ | newAddressFail => exact .inr (.inr ⟨_,rfl⟩)
  | createRaw | lockDelete _ | delete | unlockDelete => exact .inr (.inl rfl)
  | @returning result => rcases result with _ | _ <;> simp [CraftPc.outputs]
  | sync _ => unfold CraftPc.afterSync; split <;> (try split) <;> exact .inl rfl
  | _ => exact .inl rfl

theorem newAddress_answer {s s' : Shared} {sel : Selection} {pc' : CraftPc} {choice : Choice}
    {outputs : GoMap Address Int} {a : String} {v : Int}
    (stepped : craftStep E g f amt address s (.newAddress sel) choice = some (s',pc'))
    (built : pc'.outputs = some outputs) (mem : (Address.fresh a,v) ∈ outputs.entries) : choice = .address a := by
  simp only [craftStep] at stepped
  split at stepped
  · rename_i zero
    cases stepped; cases built
    simp [outputsFor_entries,zero] at mem
  · rename_i change
    split at stepped <;> cases stepped <;> cases built
    simp [outputsFor_entries,change] at mem
    rw [mem.1]

theorem answered_step {answered : String → Prop} {s s' : Shared} {pc pc' : CraftPc} {choice : Choice}
    (held : Answered answered pc) (stepped : craftStep E g f amt address s pc choice = some (s',pc')) :
    Answered (fun a => answered a ∨ choice = .address a) pc' := by
  rcases outputs_step stepped with dropped | kept | ⟨sel,rfl⟩
  · exact fun outputs built => nomatch dropped.symm.trans built
  · exact fun outputs built a v mem => .inl (held outputs (kept.symm.trans built) a v mem)
  · exact fun outputs built a v mem => .inr (newAddress_answer stepped built mem)

theorem solo_answered {sys last : System} {pc : CraftPc} {answered : String → Prop} (choices : List Choice)
    (at_g : sys.goroutines[g]? = some (.craft f amt address pc)) (held : Answered answered pc)
    (ran : sys.run E (choices.map (.run g)) = some last) :
    ∃ pc', last.goroutines[g]? = some (.craft f amt address pc') ∧
      Answered (fun a => answered a ∨ .address a ∈ choices) pc' := by
  induction choices generalizing sys pc answered with
  | nil => cases ran; exact ⟨pc,at_g,held.mono fun _ => .inl⟩
  | cons choice rest ih =>
    obtain ⟨next,pc',-,crafted,at_g,ran⟩ := solo_cons at_g ran
    obtain ⟨pc'',at_g,held⟩ := ih at_g (answered_step held crafted) ran
    refine ⟨pc'',at_g,held.mono fun a => ?_⟩
    rw [List.mem_cons]
    rintro ((earlier | rfl) | later)
    exacts [.inl earlier,.inr (.inl rfl),.inr (.inr later)]

end

section
variable (E : Env) (f : UInt64) (amt : Int) (address : String) (m : GoMap String ListUnspentResult)

-- What a craftTransaction call that found the cache m has made of it, once it
-- returns r: an error leaves m; a transaction spends a selection coinSelect
-- can return, and the cache has lost the selection's TxIDs.
def CraftedFrom (cache : Option (GoMap String ListUnspentResult)) : Except CraftError (MsgTx × Int) → Prop
  | .error _ => cache = some m
  | .ok (tx,fee) => ∃ sel changeAddr, SelectsFrom E.weight f amt m amt (.ok sel) ∧ fee = sel.requiredFee ∧
      cache = some (deleteSelected sel m) ∧
      tx = ⟨sel.selectedUtxos.map (·.outPoint),outputsFor address amt sel changeAddr,0⟩

-- The assertion at each program point of a craftTransaction call that found
-- the cache m and runs with no other goroutine writing it.
def Tracks (s : Shared) : CraftPc → Prop
  | .unlockNil | .sync _ => False
  | .select _ amtNeeded => s.unspent = some m ∧
      ∀ r, SelectsFrom E.weight f amt m amtNeeded r → SelectsFrom E.weight f amt m amt r
  | .unlockSelect r => s.unspent = some m ∧ SelectsFrom E.weight f amt m amt r
  | .lockInput sel _ | .newAddress sel => s.unspent = some m ∧ SelectsFrom E.weight f amt m amt (.ok sel)
  | .createRaw sel outputs => s.unspent = some m ∧ SelectsFrom E.weight f amt m amt (.ok sel) ∧
      ∃ changeAddr, outputs = outputsFor address amt sel changeAddr
  | .lockDelete sel tx | .delete sel tx => s.unspent = some m ∧ SelectsFrom E.weight f amt m amt (.ok sel) ∧
      ∃ changeAddr, tx = ⟨sel.selectedUtxos.map (·.outPoint),outputsFor address amt sel changeAddr,0⟩
  | .unlockDelete sel tx => s.unspent = some (deleteSelected sel m) ∧ SelectsFrom E.weight f amt m amt (.ok sel) ∧
      ∃ changeAddr, tx = ⟨sel.selectedUtxos.map (·.outPoint),outputsFor address amt sel changeAddr,0⟩
  | .returning r | .done r => CraftedFrom E f amt address m s.unspent r
  | _ => s.unspent = some m

end

section
variable {E : Env} {g : Nat} {f : UInt64} {amt : Int} {address : String} {m : GoMap String ListUnspentResult}

theorem tracks_step {s s' : Shared} {pc pc' : CraftPc} {choice : Choice}
    (tracked : Tracks E f amt address m s pc) (stepped : craftStep E g f amt address s pc choice = some (s',pc')) :
    Tracks E f amt address m s' pc' := by
  cases craftStep_sound stepped with
  | selectRetry perm retried =>
    obtain ⟨cached,reaches⟩ := tracked
    rw [cached] at perm
    exact ⟨cached,fun r selects => reaches r (.retry perm retried selects)⟩
  | selectDone perm settled =>
    obtain ⟨cached,reaches⟩ := tracked
    rw [cached] at perm
    exact ⟨cached,reaches _ (.done perm settled)⟩
  | checkNilNil nil => cases nil.symm.trans tracked
  | unlockNil | sync _ => exact tracked.elim
  | lockSelect _ => exact ⟨tracked,fun _ selects => selects⟩
  | unlockCache => simpa [Tracks] using tracked
  | unlockSelectError => simpa [Tracks,CraftedFrom] using tracked.1
  | unlockSelect => exact ⟨by simpa using tracked.1,tracked.2⟩
  | lockInputBadHash _ _ | lockInputFail _ | newAddressFail | createRawFail => exact tracked.1
  | newAddressNoChange _ | newAddress _ => exact ⟨tracked.1,tracked.2,_,rfl⟩
  | createRaw =>
    obtain ⟨cached,selects,changeAddr,rfl⟩ := tracked
    exact ⟨cached,selects,changeAddr,rfl⟩
  | delete => exact ⟨by simp [tracked.1],tracked.2⟩
  | @unlockDelete sel tx =>
    obtain ⟨cached,selects,changeAddr,rfl⟩ := tracked
    exact ⟨sel,changeAddr,selects,rfl,by simpa using cached,rfl⟩
  | returning => simpa [Tracks] using tracked
  | _ => exact tracked

end

theorem deleteSelected_entries (sel : Selection) (cache : GoMap String ListUnspentResult) :
    (deleteSelected sel cache).entries = cache.entries.filter fun e => !(sel.selectedUtxos.map (·.txID)).contains e.1 := by
  unfold deleteSelected
  induction sel.selectedUtxos generalizing cache with
  | nil => simp
  | cons u rest ih =>
    rw [List.foldl_cons,ih,GoMap.delete_entries,List.filter_filter]
    congr 1; funext e
    by_cases same : e.1 = u.txID <;> simp [same]

theorem craftTransaction_cache_effect (E : Env) (sys last : System) (g : Nat) (f : UInt64) (amt : Int)
    (address : String) (m : GoMap String ListUnspentResult) (choices : List Choice)
    (start : sys.goroutines[g]? = some (.craft f amt address .lockCoinSelect)) (cached : sys.shared.unspent = some m)
    (ran : sys.run E (choices.map (.run g)) = some last) :
    (∀ err, last.goroutines[g]? = some (.craft f amt address (.done (.error err))) → last.shared.unspent = some m) ∧
    (∀ tx fee, last.goroutines[g]? = some (.craft f amt address (.done (.ok (tx,fee)))) →
      ∃ order fuel sel changeAddr, coinSelect E.weight f amt m order fuel = some (.ok sel) ∧ fee = sel.requiredFee ∧
        last.shared.unspent.map (·.entries) =
          some (m.entries.filter fun e => !(sel.selectedUtxos.map (·.txID)).contains e.1) ∧
        tx.inputs = sel.selectedUtxos.map (·.outPoint) ∧
        tx.outputs.entries =
          (.destination address,amt) :: (if sel.changeAmt = 0 then [] else [(.fresh changeAddr,sel.changeAmt)]) ∧
        (sel.changeAmt ≠ 0 → Choice.address changeAddr ∈ choices) ∧
        (NoOverflow E.weight f amt m → satoshi sel.selectedUtxos - outputTotal tx.outputs = fee)) := by
  obtain ⟨pc,at_g,tracked⟩ := solo_run choices (fun _ => tracks_step) start cached ran
  have none_yet : Answered (fun _ => False) .lockCoinSelect := fun _ built => nomatch built
  obtain ⟨pc',at_g',answered⟩ := solo_answered choices start none_yet ran
  refine ⟨fun err done => ?_,fun tx fee done => ?_⟩
  · rw [at_g] at done; cases done; exact tracked
  · rw [done] at at_g at_g'
    cases at_g; cases at_g'
    obtain ⟨sel,changeAddr,selects,rfl,cache,rfl⟩ := tracked
    obtain ⟨order,fuel,returned⟩ := selectsFrom_loop selects
    refine ⟨order,fuel,sel,changeAddr,returned,rfl,by simp [cache,deleteSelected_entries],rfl,outputsFor_entries _ _ _ _,
      fun change => ?_,fun bounded => ?_⟩
    · exact (answered _ rfl changeAddr sel.changeAmt (by simp [outputsFor_entries,change])).resolve_left id
    · obtain ⟨-,-,paid,-⟩ := coinSelect_settles bounded order returned
      rw [outputTotal_outputsFor]
      omega

-- One call alone over a cache of one 10 satoshi output, paying 5 at fee rate 0
-- with every RPC succeeding: the change of 5 goes to the address "change".
def soloStart : System :=
  ⟨⟨some (unspentOf [⟨"aa",0,10,6⟩]),none,none,⟨[⟨"aa",0,10,6⟩],[]⟩,false⟩,[.craft 0 5 "dest" .lockCoinSelect]⟩

def soloChoices : List Choice :=
  [.ok,.ok,.ok,.ok,.ok,.ok,.range [⟨"aa",0,10,6⟩],.ok,.ok,.ok,.address "change",.ok,.ok,.ok,.ok,.ok]

theorem craftTransaction_solo_scenario :
    ∃ last, soloStart.goroutines[0]? = some (.craft 0 5 "dest" .lockCoinSelect) ∧
    soloStart.shared.unspent = some (unspentOf [⟨"aa",0,10,6⟩]) ∧
    soloStart.run scenarioEnv (soloChoices.map (.run 0)) = some last ∧
    last.goroutines[0]? =
      some (.craft 0 5 "dest" (.done (.ok (⟨[⟨"aa",0⟩],outputsFor "dest" 5 ⟨[⟨"aa",0,10,6⟩],5,0⟩ "change",0⟩,0)))) ∧
    (∀ err, last.goroutines[0]? = some (.craft 0 5 "dest" (.done (.error err))) →
      last.shared.unspent = some (unspentOf [⟨"aa",0,10,6⟩])) ∧
    (∀ tx fee, last.goroutines[0]? = some (.craft 0 5 "dest" (.done (.ok (tx,fee)))) →
      ∃ order fuel sel changeAddr, coinSelect (.linear 1 1) 0 5 (unspentOf [⟨"aa",0,10,6⟩]) order fuel = some (.ok sel) ∧
        fee = sel.requiredFee ∧
        last.shared.unspent.map (·.entries) =
          some ((unspentOf [⟨"aa",0,10,6⟩]).entries.filter fun e => !(sel.selectedUtxos.map (·.txID)).contains e.1) ∧
        tx.inputs = sel.selectedUtxos.map (·.outPoint) ∧
        tx.outputs.entries =
          (.destination "dest",5) :: (if sel.changeAmt = 0 then [] else [(.fresh changeAddr,sel.changeAmt)]) ∧
        (sel.changeAmt ≠ 0 → Choice.address changeAddr ∈ soloChoices) ∧
        (NoOverflow (.linear 1 1) 0 5 (unspentOf [⟨"aa",0,10,6⟩]) →
          satoshi sel.selectedUtxos - outputTotal tx.outputs = fee)) :=
  have ran : soloStart.run scenarioEnv (soloChoices.map (.run 0)) = some _ := rfl
  ⟨_,rfl,rfl,ran,rfl,craftTransaction_cache_effect _ soloStart _ 0 0 5 "dest" _ soloChoices rfl rfl ran⟩

section
variable (E : Env) (f : UInt64) (amt : Int) (m : GoMap String ListUnspentResult)

-- The node's locks once a call alone over the cache m has returned r: the
-- inputs of the transaction it returned, or, when it failed to lock its i-th
-- selected output, the i before it.
def LockedOn (s : Shared) : Except CraftError (MsgTx × Int) → Prop
  | .ok (tx,_) => s.node.locked = tx.inputs.reverse
  | .error (.lockUnspent op) => ∃ sel i input, SelectsFrom E.weight f amt m amt (.ok sel) ∧
      sel.selectedUtxos[i]? = some input ∧ op = input.outPoint ∧
      s.node.locked = ((sel.selectedUtxos.take i).map (·.outPoint)).reverse
  | .error _ => True

-- The node's locks at each point of such a call: whatever they were until the
-- opening unlock-all, none after it, then the selected outputs locked so far.
def Locked (s : Shared) : CraftPc → Prop
  | .lockCoinSelect | .unlockAll => True
  | .lockInput sel i => s.node.locked = ((sel.selectedUtxos.take i).map (·.outPoint)).reverse
  | .newAddress sel | .createRaw sel _ | .lockDelete sel _ | .delete sel _ | .unlockDelete sel _ =>
      s.node.locked = (sel.selectedUtxos.map (·.outPoint)).reverse
  | .returning r | .done r => LockedOn E f amt m s r
  | _ => s.node.locked = []

end

section
variable {E : Env} {g : Nat} {f : UInt64} {amt : Int} {address : String} {m : GoMap String ListUnspentResult}

theorem lockedOn_frame {s s' : Shared} {r : Except CraftError (MsgTx × Int)} (same : s'.node = s.node)
    (locked : LockedOn E f amt m s r) : LockedOn E f amt m s' r := by
  unfold LockedOn at locked ⊢
  rw [same]
  exact locked

theorem locks_step {s s' : Shared} {pc pc' : CraftPc} {choice : Choice} (tracked : Tracks E f amt address m s pc)
    (locked : Locked E f amt m s pc) (stepped : craftStep E g f amt address s pc choice = some (s',pc')) :
    Locked E f amt m s' pc' := by
  cases craftStep_sound stepped with
  | unlockAll | lockCoinSelect _ | unlockAllFail | unlockSelectError | lockInputBadHash _ _ | newAddressFail
  | createRawFail => trivial
  | unlockNil | sync _ => exact tracked.elim
  | unlockCache | unlockSelect => simpa [Locked] using locked
  | lockInputsDone past =>
    simpa [Locked,List.take_of_length_le (List.getElem?_eq_none_iff.mp past)] using locked
  | lockInputFail at_i => exact ⟨_,_,_,tracked.2,at_i,rfl,locked⟩
  | lockInput at_i =>
    simp only [Locked] at locked ⊢
    rw [List.take_succ,at_i,locked]
    simp
  | unlockDelete =>
    obtain ⟨-,-,changeAddr,rfl⟩ := tracked
    simpa [Locked,LockedOn] using locked
  | returning => exact lockedOn_frame (Shared.unlockCoinSelect_node _) locked
  | _ => exact locked

end

theorem craftTransaction_leaves_locks (E : Env) (sys last : System) (g : Nat) (f : UInt64) (amt : Int)
    (address : String) (m : GoMap String ListUnspentResult) (choices : List Choice)
    (start : sys.goroutines[g]? = some (.craft f amt address .lockCoinSelect)) (cached : sys.shared.unspent = some m)
    (ran : sys.run E (choices.map (.run g)) = some last) :
    (∀ tx fee, last.goroutines[g]? = some (.craft f amt address (.done (.ok (tx,fee)))) →
      last.shared.node.locked = tx.inputs.reverse) ∧
    (∀ op, last.goroutines[g]? = some (.craft f amt address (.done (.error (.lockUnspent op)))) →
      last.shared.unspent = some m ∧ ∃ order fuel sel i input, coinSelect E.weight f amt m order fuel = some (.ok sel) ∧
        sel.selectedUtxos[i]? = some input ∧ op = input.outPoint ∧
        last.shared.node.locked = ((sel.selectedUtxos.take i).map (·.outPoint)).reverse) := by
  have kept {s s' : Shared} {pc pc' : CraftPc} {choice : Choice} (_ : s.fatal = false)
      (held : Tracks E f amt address m s pc ∧ Locked E f amt m s pc)
      (stepped : craftStep E g f amt address s pc choice = some (s',pc')) :
      Tracks E f amt address m s' pc' ∧ Locked E f amt m s' pc' :=
    ⟨tracks_step held.1 stepped,locks_step held.1 held.2 stepped⟩
  obtain ⟨pc,at_g,tracked,locked⟩ := solo_run choices kept start ⟨cached,trivial⟩ ran
  refine ⟨fun tx fee done => ?_,fun op done => ?_⟩ <;> rw [at_g] at done <;> cases done
  · exact locked
  · obtain ⟨sel,i,input,selects,at_i,rfl,held⟩ := locked
    obtain ⟨order,fuel,returned⟩ := selectsFrom_loop selects
    exact ⟨tracked,order,fuel,sel,i,input,returned,at_i,rfl,held⟩

-- The spec's lock-failure scenario: three outputs of 10 satoshi, a payment of
-- 25 at fee rate 0 that selects all three, and a failed LockUnspent for the
-- second: the first stays locked.
def tripleStart : System :=
  ⟨⟨some (unspentOf [⟨"aa",0,10,6⟩,⟨"bb",0,10,6⟩,⟨"cc",0,10,6⟩]),none,none,⟨[],[]⟩,false⟩,
    [.craft 0 25 "dest" .lockCoinSelect]⟩

def lockFailChoices : List Choice :=
  List.replicate 6 .ok ++ [.range [⟨"aa",0,10,6⟩,⟨"bb",0,10,6⟩,⟨"cc",0,10,6⟩],.ok,.ok,.fail,.ok]

theorem craftTransaction_leaves_locks_scenario :
    ∃ last, tripleStart.goroutines[0]? = some (.craft 0 25 "dest" .lockCoinSelect) ∧
    tripleStart.shared.unspent = some (unspentOf [⟨"aa",0,10,6⟩,⟨"bb",0,10,6⟩,⟨"cc",0,10,6⟩]) ∧
    tripleStart.run scenarioEnv (lockFailChoices.map (.run 0)) = some last ∧
    last.goroutines[0]? = some (.craft 0 25 "dest" (.done (.error (.lockUnspent ⟨"bb",0⟩)))) ∧
    last.shared.node.locked = [⟨"aa",0⟩] ∧
    (∀ tx fee, last.goroutines[0]? = some (.craft 0 25 "dest" (.done (.ok (tx,fee)))) →
      last.shared.node.locked = tx.inputs.reverse) ∧
    (∀ op, last.goroutines[0]? = some (.craft 0 25 "dest" (.done (.error (.lockUnspent op)))) →
      last.shared.unspent = some (unspentOf [⟨"aa",0,10,6⟩,⟨"bb",0,10,6⟩,⟨"cc",0,10,6⟩]) ∧
      ∃ order fuel sel i input,
        coinSelect (.linear 1 1) 0 25 (unspentOf [⟨"aa",0,10,6⟩,⟨"bb",0,10,6⟩,⟨"cc",0,10,6⟩]) order fuel = some (.ok sel) ∧
        sel.selectedUtxos[i]? = some input ∧ op = input.outPoint ∧
        last.shared.node.locked = ((sel.selectedUtxos.take i).map (·.outPoint)).reverse) :=
  have ran : tripleStart.run scenarioEnv (lockFailChoices.map (.run 0)) = some _ := rfl
  ⟨_,rfl,rfl,ran,rfl,rfl,craftTransaction_leaves_locks _ tripleStart _ 0 0 25 "dest" _ _ rfl rfl ran⟩

end Payserver.Bitcoind
