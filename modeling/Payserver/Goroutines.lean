import Payserver.CoinSelect
import Payserver.Sync

namespace Payserver.Bitcoind

-- What the machine takes from outside this repository: the estimator's weight,
-- c.cfg.MinConfirmations, and the TxIDs chainhash.NewHashFromStr accepts.
structure Env where
  weight : P2PKHWeight
  minConfirmations : Nat
  newHashFromStr : String → Bool

-- A btcutil.Address keying the outputs map. The interface holds a pointer and
-- compares by identity, so the destination passed in and the fresh address
-- GetNewAddress returns are two keys whatever they encode.
inductive Address where
  | destination (encoded : String)
  | fresh (encoded : String)
  deriving DecidableEq, Repr

structure MsgTx where
  inputs : List OutPoint
  outputs : GoMap Address Int
  lockTime : Int
  deriving DecidableEq

-- chainhash.NewHashFromStr: at most 64 characters, each a hex digit.
def chainhashDecodes (txID : String) : Bool :=
  txID.toList.length ≤ 64 && txID.toList.all fun c => c.isDigit || ('a' ≤ c && c ≤ 'f') || ('A' ≤ c && c ≤ 'F')

def scenarioEnv : Env := ⟨.linear 1 1,1,chainhashDecodes⟩

-- craftTransaction's error exits, in source order.
inductive CraftError where
  | unlockUnspent
  | syncUnspent
  | selectInputs (err : ErrInsufficientFunds)
  | newHashFromStr (txID : String)
  | lockUnspent (outpoint : OutPoint)
  | getNewAddress
  | createRawTransaction
  deriving DecidableEq, Repr

-- syncUnspent's program points; its return is the step out of `unlock`.
inductive SyncPc where
  | lock
  | list
  | fill (unspent : List ListUnspentResult)
  | unlock (listed : Bool)
  deriving DecidableEq, Repr

-- craftTransaction's program points, named after the statement each runs
-- next. `select` is one pass of coinSelect's loop, `lockInput` one pass of
-- the loop locking the selected outputs, `returning` the deferred Unlock of
-- coinSelectMtx.
inductive CraftPc where
  | lockCoinSelect
  | unlockAll
  | lockCache
  | checkNil
  | unlockNil
  | sync (pc : SyncPc)
  | unlockCache
  | lockSelect
  | select (round : Nat) (amtNeeded : Int)
  | unlockSelect (result : Except ErrInsufficientFunds Selection)
  | lockInput (sel : Selection) (i : Nat)
  | newAddress (sel : Selection)
  | createRaw (sel : Selection) (outputs : GoMap Address Int)
  | lockDelete (sel : Selection) (tx : MsgTx)
  | delete (sel : Selection) (tx : MsgTx)
  | unlockDelete (sel : Selection) (tx : MsgTx)
  | returning (result : Except CraftError (MsgTx × Int))
  | done (result : Except CraftError (MsgTx × Int))

-- The state goroutines share: c.unspent (none is the nil map), each mutex with
-- the goroutine that locked it, the node, and whether the runtime has stopped
-- the process.
structure Shared where
  unspent : Option (GoMap String ListUnspentResult)
  unspentSyncMtx : Option Nat
  coinSelectMtx : Option Nat
  node : Node
  fatal : Bool

-- Unlock of a free mutex is Go's fatal "sync: unlock of unlocked mutex"; a
-- held one is released, whichever goroutine locked it.
def Shared.unlockUnspentSync (s : Shared) : Shared :=
  match s.unspentSyncMtx with
  | none => {s with fatal := true}
  | some _ => {s with unspentSyncMtx := none}

def Shared.unlockCoinSelect (s : Shared) : Shared :=
  match s.coinSelectMtx with
  | none => {s with fatal := true}
  | some _ => {s with coinSelectMtx := none}

@[simp] theorem Shared.unlockUnspentSync_unspent (s : Shared) : s.unlockUnspentSync.unspent = s.unspent := by
  unfold Shared.unlockUnspentSync; split <;> rfl

@[simp] theorem Shared.unlockCoinSelect_unspent (s : Shared) : s.unlockCoinSelect.unspent = s.unspent := by
  unfold Shared.unlockCoinSelect; split <;> rfl

@[simp] theorem Shared.unlockUnspentSync_node (s : Shared) : s.unlockUnspentSync.node = s.node := by
  unfold Shared.unlockUnspentSync; split <;> rfl

@[simp] theorem Shared.unlockCoinSelect_node (s : Shared) : s.unlockCoinSelect.node = s.node := by
  unfold Shared.unlockCoinSelect; split <;> rfl

-- The schedule's choice for a step: the outcome of its RPC, the order of a
-- range over c.unspent, or the address GetNewAddress returns.
inductive Choice where
  | ok
  | fail
  | range (order : List ListUnspentResult)
  | address (changeAddr : String)
  deriving DecidableEq, Repr

def Choice.failed : Choice → Bool
  | .fail => true
  | _ => false

def syncStep (E : Env) (g : Nat) (s : Shared) : SyncPc → Choice → Option (Shared × (SyncPc ⊕ Bool))
  | .lock,_ => if s.unspentSyncMtx = none then some ({s with unspentSyncMtx := some g},.inl .list) else none
  | .list,choice =>
    if choice.failed then some (s,.inl (.unlock false))
    else some (s,.inl (.fill (s.node.listUnspentMinMax E.minConfirmations maxInt32)))
  | .fill unspent,_ => some ({s with unspent := some (unspentOf unspent)},.inl (.unlock true))
  | .unlock listed,_ => some (s.unlockUnspentSync,.inr listed)

-- delete(c.unspent, input.TxID) for every selected input.
def deleteSelected (sel : Selection) (cache : GoMap String ListUnspentResult) : GoMap String ListUnspentResult :=
  sel.selectedUtxos.foldl (fun cache input => cache.delete input.txID) cache

-- outputs[address] = amt, then outputs[changeAddr] = changeAmt when there is change.
def outputsFor (address : String) (amt : Int) (sel : Selection) (changeAddr : String) : GoMap Address Int :=
  if sel.changeAmt = 0 then GoMap.empty.insert (.destination address) amt
  else (GoMap.empty.insert (.destination address) amt).insert (.fresh changeAddr) sel.changeAmt

theorem outputsFor_entries (address : String) (amt : Int) (sel : Selection) (changeAddr : String) :
    (outputsFor address amt sel changeAddr).entries =
      (.destination address,amt) :: if sel.changeAmt = 0 then [] else [(.fresh changeAddr,sel.changeAmt)] := by
  unfold outputsFor
  split <;> simp [GoMap.insert,GoMap.empty]

-- Where the inline syncUnspent of line 131 continues: its next point, or on
-- its return line 135, or the error return of line 132.
def CraftPc.afterSync : SyncPc ⊕ Bool → CraftPc
  | .inl pc => .sync pc
  | .inr listed => if listed then .unlockCache else .returning (.error .syncUnspent)

def craftStep (E : Env) (g : Nat) (f : UInt64) (amt : Int) (address : String) (s : Shared) :
    CraftPc → Choice → Option (Shared × CraftPc)
  | .lockCoinSelect,_ => if s.coinSelectMtx = none then some ({s with coinSelectMtx := some g},.unlockAll) else none
  | .unlockAll,choice =>
    if choice.failed then some (s,.returning (.error .unlockUnspent))
    else some ({s with node := {s.node with locked := []}},.lockCache)
  | .lockCache,_ => if s.unspentSyncMtx = none then some ({s with unspentSyncMtx := some g},.checkNil) else none
  | .checkNil,_ => some (s,if s.unspent.isNone then .unlockNil else .unlockCache)
  | .unlockNil,_ => some (s.unlockUnspentSync,.sync .lock)
  | .sync pc,choice => (syncStep E g s pc choice).map fun (s,next) => (s,CraftPc.afterSync next)
  | .unlockCache,_ => some (s.unlockUnspentSync,.lockSelect)
  | .lockSelect,_ => if s.unspentSyncMtx = none then some ({s with unspentSyncMtx := some g},.select 0 amt) else none
  | .select round amtNeeded,choice =>
    match choice with
    | .range order =>
      if order.Perm (s.unspent.getD .empty).values then
        some (s,match coinSelectRound E.weight f amt amtNeeded order with
          | .retry next => .select (round+1) next
          | .done result => .unlockSelect result)
      else none
    | _ => none
  | .unlockSelect result,_ => some (s.unlockUnspentSync,match result with
      | .error err => .returning (.error (.selectInputs err))
      | .ok sel => .lockInput sel 0)
  | .lockInput sel i,choice =>
    match sel.selectedUtxos[i]? with
    | none => some (s,.newAddress sel)
    | some input =>
      if !E.newHashFromStr input.txID then some (s,.returning (.error (.newHashFromStr input.txID)))
      else if choice.failed then some (s,.returning (.error (.lockUnspent input.outPoint)))
      else some ({s with node := {s.node with locked := input.outPoint :: s.node.locked}},.lockInput sel (i+1))
  | .newAddress sel,choice =>
    if sel.changeAmt = 0 then some (s,.createRaw sel (outputsFor address amt sel ""))
    else match choice with
      | .address changeAddr => some (s,.createRaw sel (outputsFor address amt sel changeAddr))
      | .fail => some (s,.returning (.error .getNewAddress))
      | _ => none
  | .createRaw sel outputs,choice =>
    if choice.failed then some (s,.returning (.error .createRawTransaction))
    else some (s,.lockDelete sel ⟨sel.selectedUtxos.map (·.outPoint),outputs,0⟩)
  | .lockDelete sel tx,_ => if s.unspentSyncMtx = none then some ({s with unspentSyncMtx := some g},.delete sel tx) else none
  | .delete sel tx,_ => some ({s with unspent := s.unspent.map (deleteSelected sel)},.unlockDelete sel tx)
  | .unlockDelete sel tx,_ => some (s.unlockUnspentSync,.returning (.ok (tx,sel.requiredFee)))
  | .returning result,_ => some (s.unlockCoinSelect,.done result)
  | .done _,_ => none

-- The steps craftStep takes, one constructor per branch, each with its guard.
inductive CraftMove (E : Env) (g : Nat) (f : UInt64) (amt : Int) (address : String) :
    Shared → CraftPc → Shared → CraftPc → Prop
  | lockCoinSelect {s : Shared} (free : s.coinSelectMtx = none) :
      CraftMove E g f amt address s .lockCoinSelect {s with coinSelectMtx := some g} .unlockAll
  | unlockAllFail {s : Shared} : CraftMove E g f amt address s .unlockAll s (.returning (.error .unlockUnspent))
  | unlockAll {s : Shared} : CraftMove E g f amt address s .unlockAll {s with node := {s.node with locked := []}} .lockCache
  | lockCache {s : Shared} (free : s.unspentSyncMtx = none) :
      CraftMove E g f amt address s .lockCache {s with unspentSyncMtx := some g} .checkNil
  | checkNil {s : Shared} {cache : GoMap String ListUnspentResult} (cached : s.unspent = some cache) :
      CraftMove E g f amt address s .checkNil s .unlockCache
  | checkNilNil {s : Shared} (nil : s.unspent = none) : CraftMove E g f amt address s .checkNil s .unlockNil
  | unlockNil {s : Shared} : CraftMove E g f amt address s .unlockNil s.unlockUnspentSync (.sync .lock)
  | sync {s s' : Shared} {pc : SyncPc} {choice : Choice} {next : SyncPc ⊕ Bool}
      (stepped : syncStep E g s pc choice = some (s',next)) :
      CraftMove E g f amt address s (.sync pc) s' (CraftPc.afterSync next)
  | unlockCache {s : Shared} : CraftMove E g f amt address s .unlockCache s.unlockUnspentSync .lockSelect
  | lockSelect {s : Shared} (free : s.unspentSyncMtx = none) :
      CraftMove E g f amt address s .lockSelect {s with unspentSyncMtx := some g} (.select 0 amt)
  | selectRetry {s : Shared} {round : Nat} {amtNeeded next : Int} {order : List ListUnspentResult}
      (perm : order.Perm (s.unspent.getD .empty).values)
      (retried : coinSelectRound E.weight f amt amtNeeded order = .retry next) :
      CraftMove E g f amt address s (.select round amtNeeded) s (.select (round+1) next)
  | selectDone {s : Shared} {round : Nat} {amtNeeded : Int} {order : List ListUnspentResult}
      {result : Except ErrInsufficientFunds Selection} (perm : order.Perm (s.unspent.getD .empty).values)
      (settled : coinSelectRound E.weight f amt amtNeeded order = .done result) :
      CraftMove E g f amt address s (.select round amtNeeded) s (.unlockSelect result)
  | unlockSelectError {s : Shared} {err : ErrInsufficientFunds} :
      CraftMove E g f amt address s (.unlockSelect (.error err)) s.unlockUnspentSync (.returning (.error (.selectInputs err)))
  | unlockSelect {s : Shared} {sel : Selection} :
      CraftMove E g f amt address s (.unlockSelect (.ok sel)) s.unlockUnspentSync (.lockInput sel 0)
  | lockInputsDone {s : Shared} {sel : Selection} {i : Nat} (past : sel.selectedUtxos[i]? = none) :
      CraftMove E g f amt address s (.lockInput sel i) s (.newAddress sel)
  | lockInputBadHash {s : Shared} {sel : Selection} {i : Nat} {input : ListUnspentResult}
      (at_i : sel.selectedUtxos[i]? = some input) (bad : E.newHashFromStr input.txID = false) :
      CraftMove E g f amt address s (.lockInput sel i) s (.returning (.error (.newHashFromStr input.txID)))
  | lockInputFail {s : Shared} {sel : Selection} {i : Nat} {input : ListUnspentResult}
      (at_i : sel.selectedUtxos[i]? = some input) :
      CraftMove E g f amt address s (.lockInput sel i) s (.returning (.error (.lockUnspent input.outPoint)))
  | lockInput {s : Shared} {sel : Selection} {i : Nat} {input : ListUnspentResult}
      (at_i : sel.selectedUtxos[i]? = some input) :
      CraftMove E g f amt address s (.lockInput sel i)
        {s with node := {s.node with locked := input.outPoint :: s.node.locked}} (.lockInput sel (i+1))
  | newAddressNoChange {s : Shared} {sel : Selection} (zero : sel.changeAmt = 0) :
      CraftMove E g f amt address s (.newAddress sel) s (.createRaw sel (outputsFor address amt sel ""))
  | newAddress {s : Shared} {sel : Selection} (changeAddr : String) :
      CraftMove E g f amt address s (.newAddress sel) s (.createRaw sel (outputsFor address amt sel changeAddr))
  | newAddressFail {s : Shared} {sel : Selection} :
      CraftMove E g f amt address s (.newAddress sel) s (.returning (.error .getNewAddress))
  | createRawFail {s : Shared} {sel : Selection} {outputs : GoMap Address Int} :
      CraftMove E g f amt address s (.createRaw sel outputs) s (.returning (.error .createRawTransaction))
  | createRaw {s : Shared} {sel : Selection} {outputs : GoMap Address Int} :
      CraftMove E g f amt address s (.createRaw sel outputs) s (.lockDelete sel ⟨sel.selectedUtxos.map (·.outPoint),outputs,0⟩)
  | lockDelete {s : Shared} {sel : Selection} {tx : MsgTx} (free : s.unspentSyncMtx = none) :
      CraftMove E g f amt address s (.lockDelete sel tx) {s with unspentSyncMtx := some g} (.delete sel tx)
  | delete {s : Shared} {sel : Selection} {tx : MsgTx} :
      CraftMove E g f amt address s (.delete sel tx) {s with unspent := s.unspent.map (deleteSelected sel)} (.unlockDelete sel tx)
  | unlockDelete {s : Shared} {sel : Selection} {tx : MsgTx} :
      CraftMove E g f amt address s (.unlockDelete sel tx) s.unlockUnspentSync (.returning (.ok (tx,sel.requiredFee)))
  | returning {s : Shared} {result : Except CraftError (MsgTx × Int)} :
      CraftMove E g f amt address s (.returning result) s.unlockCoinSelect (.done result)

theorem craftStep_sound {E : Env} {g : Nat} {f : UInt64} {amt : Int} {address : String} {s s' : Shared}
    {pc pc' : CraftPc} {choice : Choice} (stepped : craftStep E g f amt address s pc choice = some (s',pc')) :
    CraftMove E g f amt address s pc s' pc' := by
  cases pc <;> simp only [craftStep] at stepped
  case checkNil =>
    cases stepped
    cases cached : s.unspent
    · simpa [cached] using CraftMove.checkNilNil cached
    · simpa [cached] using CraftMove.checkNil cached
  case sync =>
    obtain ⟨⟨s',next⟩,ran,same⟩ := Option.map_eq_some'.mp stepped
    cases same
    exact .sync ran
  case select =>
    split at stepped <;> try cases stepped
    split at stepped <;> cases stepped
    split
    · exact .selectRetry ‹_› ‹_›
    · exact .selectDone ‹_› ‹_›
  case unlockSelect result =>
    cases stepped
    cases result
    · exact .unlockSelectError
    · exact .unlockSelect
  case lockInput =>
    split at stepped
    · cases stepped; exact .lockInputsDone ‹_›
    · split at stepped
      · rename_i at_i bad
        cases stepped
        exact .lockInputBadHash at_i (by simpa using bad)
      · split at stepped <;> cases stepped
        · exact .lockInputFail ‹_›
        · exact .lockInput ‹_›
  case newAddress =>
    split at stepped
    · cases stepped; exact .newAddressNoChange ‹_›
    · split at stepped <;> cases stepped
      · exact .newAddress _
      · exact .newAddressFail
  case done => cases stepped
  all_goals
    repeat' split at stepped
    all_goals cases stepped
  all_goals constructor <;> assumption

inductive Goroutine where
  | craft (feeRatePerWeight : UInt64) (amt : Int) (address : String) (pc : CraftPc)
  | sync (pc : SyncPc)
  | synced (listed : Bool)

def Goroutine.step (E : Env) (g : Nat) (s : Shared) : Goroutine → Choice → Option (Shared × Goroutine)
  | .craft f amt address pc,choice => (craftStep E g f amt address s pc choice).map fun (s,pc) => (s,.craft f amt address pc)
  | .sync pc,choice => (syncStep E g s pc choice).map fun (s,next) => (s,match next with
      | .inl pc => .sync pc
      | .inr listed => .synced listed)
  | .synced _,_ => none

structure System where
  shared : Shared
  goroutines : List Goroutine

-- A step of goroutine g, or the caller's broadcast of the transaction g returned.
inductive Event where
  | run (g : Nat) (choice : Choice)
  | broadcast (g : Nat)
  deriving DecidableEq, Repr

-- SendTransaction: the node accepts a transaction whose inputs are all unspent
-- and spends them; it rejects any other.
def Node.send (node : Node) (tx : MsgTx) : Node :=
  if tx.inputs.all fun op => node.utxos.any (·.outPoint == op) then
    {node with utxos := node.utxos.filter fun u => !tx.inputs.contains u.outPoint}
  else node

def System.step (E : Env) (sys : System) : Event → Option System
  | .run g choice =>
    if sys.shared.fatal then none
    else match sys.goroutines[g]? with
      | none => none
      | some routine => (routine.step E g sys.shared choice).map fun (s,routine) => ⟨s,sys.goroutines.set g routine⟩
  | .broadcast g =>
    match sys.goroutines[g]? with
    | some (.craft _ _ _ (.done (.ok (tx,_)))) => some {sys with shared := {sys.shared with node := sys.shared.node.send tx}}
    | _ => none

theorem step_run {E : Env} {sys next : System} {g : Nat} {choice : Choice} {routine : Goroutine}
    (stepped : sys.step E (.run g choice) = some next) (at_g : sys.goroutines[g]? = some routine) :
    sys.shared.fatal = false ∧ ∃ routine', routine.step E g sys.shared choice = some (next.shared,routine') ∧
      next.goroutines = sys.goroutines.set g routine' := by
  simp only [System.step,at_g] at stepped
  split at stepped
  · cases stepped
  · rename_i live
    obtain ⟨⟨s,routine'⟩,ran,rfl⟩ := Option.map_eq_some'.mp stepped
    exact ⟨by simpa using live,routine',ran,rfl⟩

theorem getElem?_set_at {routines : List Goroutine} {g : Nat} {routine routine' : Goroutine}
    (at_g : routines[g]? = some routine) : (routines.set g routine')[g]? = some routine' :=
  List.getElem?_set_self (List.getElem?_eq_some_iff.mp at_g).1

theorem forall_set {routines : List Goroutine} {g : Nat} {routine routine' : Goroutine}
    {P : Nat → Goroutine → Prop} (at_g : routines[g]? = some routine) (here : P g routine')
    (others : ∀ h r, h ≠ g → routines[h]? = some r → P h r) :
    ∀ h r, (routines.set g routine')[h]? = some r → P h r := by
  intro h r at_h
  by_cases same : h = g
  · subst same
    rw [getElem?_set_at at_g,Option.some.injEq] at at_h
    exact at_h ▸ here
  · rw [List.getElem?_set_ne (Ne.symm same)] at at_h
    exact others h r same at_h

theorem craft_step {E : Env} {g : Nat} {s s' : Shared} {f : UInt64} {amt : Int} {address : String}
    {pc : CraftPc} {choice : Choice} {routine' : Goroutine}
    (stepped : (Goroutine.craft f amt address pc).step E g s choice = some (s',routine')) :
    ∃ pc', craftStep E g f amt address s pc choice = some (s',pc') ∧ routine' = .craft f amt address pc' := by
  obtain ⟨⟨s,pc'⟩,ran,same⟩ := Option.map_eq_some'.mp stepped
  cases same
  exact ⟨pc',ran,rfl⟩

def System.run (E : Env) : System → List Event → Option System
  | sys,[] => some sys
  | sys,event :: rest => (sys.step E event).bind (·.run E rest)

inductive Reaches (E : Env) : System → System → Prop
  | refl (sys : System) : Reaches E sys sys
  | step {sys next last : System} (event : Event) (stepped : sys.step E event = some next)
      (rest : Reaches E next last) : Reaches E sys last

theorem run_reaches {E : Env} {sys last : System} {events : List Event}
    (ran : sys.run E events = some last) : Reaches E sys last := by
  induction events generalizing sys with
  | nil => cases ran; exact .refl _
  | cons event rest ih =>
    simp only [System.run,Option.bind_eq_some] at ran
    obtain ⟨next,stepped,ran⟩ := ran
    exact .step event stepped (ih ran)

theorem solo_cons {E : Env} {g : Nat} {f : UInt64} {amt : Int} {address : String} {sys last : System}
    {pc : CraftPc} {choice : Choice} {rest : List Choice} (at_g : sys.goroutines[g]? = some (.craft f amt address pc))
    (ran : sys.run E ((choice :: rest).map (.run g)) = some last) :
    ∃ (next : System) (pc' : CraftPc), sys.shared.fatal = false ∧
      craftStep E g f amt address sys.shared pc choice = some (next.shared,pc') ∧
      next.goroutines[g]? = some (.craft f amt address pc') ∧ next.run E (rest.map (.run g)) = some last := by
  simp only [List.map_cons,System.run,Option.bind_eq_some] at ran
  obtain ⟨next,stepped,ran⟩ := ran
  obtain ⟨live,routine',ran',goroutines⟩ := step_run stepped at_g
  obtain ⟨pc',crafted,rfl⟩ := craft_step ran'
  exact ⟨next,pc',live,crafted,by rw [goroutines]; exact getElem?_set_at at_g,ran⟩

theorem solo_run {E : Env} {g : Nat} {f : UInt64} {amt : Int} {address : String} {P : Shared → CraftPc → Prop}
    {sys last : System} {pc : CraftPc} (choices : List Choice)
    (kept : ∀ {s s' pc pc' choice}, s.fatal = false → P s pc →
      craftStep E g f amt address s pc choice = some (s',pc') → P s' pc')
    (at_g : sys.goroutines[g]? = some (.craft f amt address pc)) (holds : P sys.shared pc)
    (ran : sys.run E (choices.map (.run g)) = some last) :
    ∃ pc', last.goroutines[g]? = some (.craft f amt address pc') ∧ P last.shared pc' := by
  induction choices generalizing sys pc with
  | nil => cases ran; exact ⟨pc,at_g,holds⟩
  | cons choice rest ih =>
    obtain ⟨next,pc',live,crafted,at_g,ran⟩ := solo_cons at_g ran
    exact ih at_g (kept live holds crafted) ran

theorem solo_steps {E : Env} {g : Nat} {f : UInt64} {amt : Int} {address : String}
    {P : Shared → CraftPc → Nat → Prop} {sys last : System} {pc : CraftPc} {n : Nat} (choices : List Choice)
    (spent : ∀ {s s' pc pc' choice n}, s.fatal = false → P s pc n →
      craftStep E g f amt address s pc choice = some (s',pc') → ∃ n', n = n' + 1 ∧ P s' pc' n')
    (at_g : sys.goroutines[g]? = some (.craft f amt address pc)) (holds : P sys.shared pc n)
    (ran : sys.run E (choices.map (.run g)) = some last) : choices.length ≤ n := by
  induction choices generalizing sys pc n with
  | nil => exact Nat.zero_le n
  | cons choice rest ih =>
    obtain ⟨next,pc',live,crafted,at_g,ran⟩ := solo_cons at_g ran
    obtain ⟨n',rfl,still⟩ := spent live holds crafted
    exact Nat.succ_le_succ (ih at_g still ran)

end Payserver.Bitcoind
