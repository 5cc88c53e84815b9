import Payserver.Craft
import Payserver.Locking

namespace Payserver.Bitcoind

def Goroutine.returned : Goroutine → Option (List OutPoint)
  | .craft _ _ _ (.done (.ok (tx,_))) => some tx.inputs
  | _ => none

-- The inputs of every transaction a craftTransaction call has returned.
def returnedInputs (sys : System) : List (List OutPoint) := sys.goroutines.filterMap Goroutine.returned

-- The outpoints a call has deleted from the cache for its transaction, from
-- that delete until it has returned the transaction.
def CraftPc.spent : CraftPc → List OutPoint
  | .unlockDelete _ tx | .returning (.ok (tx,_)) | .done (.ok (tx,_)) => tx.inputs
  | _ => []

-- The outputs coin selection has handed a call that has not deleted them yet.
def CraftPc.selected : CraftPc → List ListUnspentResult
  | .unlockSelect (.ok sel) | .lockInput sel _ | .newAddress sel | .createRaw sel _ | .lockDelete sel _
  | .delete sel _ => sel.selectedUtxos
  | _ => []

-- The transaction about to be deleted for spends exactly the selection.
def CraftPc.Builds : CraftPc → Prop
  | .lockDelete sel tx | .delete sel tx => tx.inputs = sel.selectedUtxos.map (·.outPoint)
  | _ => True

def Goroutine.spent : Goroutine → List OutPoint
  | .craft _ _ _ pc => pc.spent
  | _ => []

def Goroutine.selected : Goroutine → List ListUnspentResult
  | .craft _ _ _ pc => pc.selected
  | _ => []

def Goroutine.Builds : Goroutine → Prop
  | .craft _ _ _ pc => pc.Builds
  | _ => True

def Goroutine.isCraft : Goroutine → Bool
  | .craft _ _ _ _ => true
  | _ => false

def System.spent (sys : System) : List OutPoint := (sys.goroutines.map Goroutine.spent).flatten

-- The outpoints a call has locked at the node and not yet returned from: the
-- selected outputs locked so far, then its transaction's inputs.
def CraftPc.reserved : CraftPc → List OutPoint
  | .lockInput sel i => (sel.selectedUtxos.take i).map (·.outPoint)
  | .newAddress sel | .createRaw sel _ | .lockDelete sel _ | .delete sel _ => sel.selectedUtxos.map (·.outPoint)
  | .unlockDelete _ tx | .returning (.ok (tx,_)) => tx.inputs
  | _ => []

def Goroutine.reserved : Goroutine → List OutPoint
  | .craft _ _ _ pc => pc.reserved
  | _ => []

-- The listing a syncUnspent holds between ListUnspentMinMax and its fill.
def Goroutine.listing : Goroutine → List ListUnspentResult
  | .sync (.fill unspent) | .craft _ _ _ (.sync (.fill unspent)) => unspent
  | _ => []

def Goroutine.lists : Goroutine → Bool
  | .sync .list | .craft _ _ _ (.sync .list) => true
  | _ => false

theorem Goroutine.outside_coinSelect {routine : Goroutine} (outside : routine.holdsCoinSelect = false) :
    routine.selected = [] ∧ routine.Builds ∧ routine.reserved = [] := by
  rcases routine with ⟨_,_,_,pc⟩ | _ | _
  · cases pc <;> first | exact ⟨rfl,trivial,rfl⟩ | cases outside
  all_goals exact ⟨rfl,trivial,rfl⟩

theorem Goroutine.outside_cache {routine : Goroutine} (outside : routine.holdsCache = false) :
    routine.listing = [] := by
  rcases routine with ⟨_,_,_,_ | _ | _ | _ | _ | pc | _⟩ | pc | _
  all_goals first | rfl | (cases pc <;> first | rfl | cases outside)

theorem Goroutine.spent_cases {routine : Goroutine} {op : OutPoint} (mem : op ∈ routine.spent) :
    (∃ inputs, routine.returned = some inputs ∧ op ∈ inputs) ∨ op ∈ routine.reserved := by
  rcases routine with ⟨_,_,_,pc⟩ | _ | _
  · cases pc with
    | unlockDelete => exact .inr mem
    | returning r => rcases r with _ | ⟨tx,_⟩ <;> first | cases mem | exact .inr mem
    | done r => rcases r with _ | ⟨tx,_⟩ <;> first | cases mem | exact .inl ⟨_,rfl,mem⟩
    | _ => cases mem
  all_goals cases mem

theorem Goroutine.returned_spent {routine : Goroutine} {inputs : List OutPoint}
    (returned : routine.returned = some inputs) : inputs = routine.spent := by
  unfold Goroutine.returned at returned
  split at returned
  · cases returned
    rfl
  · cases returned

theorem returnedInputs_sublist (sys : System) : (returnedInputs sys).flatten.Sublist sys.spent := by
  unfold returnedInputs System.spent
  induction sys.goroutines with
  | nil => simp
  | cons routine rest ih =>
    rw [List.filterMap_cons,List.map_cons,List.flatten_cons]
    split
    · exact List.sublist_append_of_sublist_right ih
    · rename_i inputs returned
      rw [List.flatten_cons,Goroutine.returned_spent returned]
      exact ih.append_left _

theorem spent_set_same {routines : List Goroutine} {g : Nat} {routine routine' : Goroutine}
    (at_g : routines[g]? = some routine) (same : routine'.spent = routine.spent) :
    (routines.set g routine').map Goroutine.spent = routines.map Goroutine.spent := by
  induction routines generalizing g with
  | nil => cases at_g
  | cons first rest ih =>
    cases g with
    | zero =>
      simp only [List.getElem?_cons_zero,Option.some.injEq] at at_g
      simp [at_g,same]
    | succ g => simpa using ih (by simpa using at_g)

theorem spent_set_grow {routines : List Goroutine} {g : Nat} {routine routine' : Goroutine}
    (at_g : routines[g]? = some routine) (empty : routine.spent = []) :
    ((routines.set g routine').map Goroutine.spent).flatten.Perm
      ((routines.map Goroutine.spent).flatten ++ routine'.spent) := by
  induction routines generalizing g with
  | nil => cases at_g
  | cons first rest ih =>
    cases g with
    | zero =>
      simp only [List.getElem?_cons_zero,Option.some.injEq] at at_g
      subst at_g
      simpa [empty] using List.perm_append_comm
    | succ g => simpa using (ih (by simpa using at_g)).append_left first.spent

theorem mem_values_deleteSelected {sel : Selection} {cache : GoMap String ListUnspentResult}
    {u : ListUnspentResult} (keyed : WellKeyed cache) (mem : u ∈ (deleteSelected sel cache).values) :
    u ∈ cache.values ∧ u.txID ∉ sel.selectedUtxos.map (·.txID) := by
  simp only [GoMap.values,deleteSelected_entries,List.mem_map,List.mem_filter] at mem
  obtain ⟨e,⟨mem,fresh⟩,rfl⟩ := mem
  refine ⟨List.mem_map_of_mem _ mem,?_⟩
  rw [keyed e mem]
  simpa using fresh

theorem wellKeyed_deleteSelected {cache : GoMap String ListUnspentResult} (keyed : WellKeyed cache)
    (sel : Selection) : WellKeyed (deleteSelected sel cache) := fun e mem => by
  rw [deleteSelected_entries] at mem
  exact keyed e (List.mem_of_mem_filter mem)

theorem outPoints_nodup {cache : GoMap String ListUnspentResult} {selected : List ListUnspentResult}
    (keyed : WellKeyed cache) (within : selected.Subperm cache.values) : (selected.map (·.outPoint)).Nodup := by
  have keys : cache.values.map (·.txID) = cache.entries.map Prod.fst := by
    simp only [GoMap.values,List.map_map]
    exact List.map_congr_left fun e mem => keyed e mem
  obtain ⟨chosen,perm,sub⟩ := within
  have distinct : (selected.map (·.txID)).Nodup :=
    (perm.map _).nodup_iff.mp ((sub.map _).nodup (keys ▸ cache.nodup))
  exact List.Nodup.of_map OutPoint.hash (by simpa [List.map_map,Function.comp_def] using distinct)

theorem System.spent_cases {sys : System} {op : OutPoint} (mem : op ∈ sys.spent) :
    op ∈ (returnedInputs sys).flatten ∨ ∃ (g : Nat) (routine : Goroutine), sys.goroutines[g]? = some routine ∧
      op ∈ routine.reserved := by
  simp only [System.spent,List.mem_flatten,List.mem_map] at mem
  obtain ⟨_,⟨routine,listed,rfl⟩,mem⟩ := mem
  obtain ⟨g,at_g⟩ := List.mem_iff_getElem?.mp listed
  rcases Goroutine.spent_cases mem with ⟨inputs,returned,mem⟩ | reserved
  · exact .inl (List.mem_flatten.mpr ⟨inputs,List.mem_filterMap.mpr ⟨routine,listed,returned⟩,mem⟩)
  · exact .inr ⟨g,routine,at_g,reserved⟩

theorem Node.send_locked (node : Node) (tx : MsgTx) : (node.send tx).locked = node.locked := by
  unfold Node.send; split <;> rfl

-- Every transaction returned so far spends outputs the node no longer holds
-- unspent.
def ReturnedSpent (sys : System) : Prop :=
  ∀ op ∈ (returnedInputs sys).flatten, ∀ u ∈ sys.shared.node.utxos, u.outPoint ≠ op

-- Runs in which every ListUnspentMinMax comes after the transactions returned
-- so far have been spent at the node.
inductive ReachesSpending (E : Env) : System → System → Prop
  | refl (sys : System) : ReachesSpending E sys sys
  | step {sys next last : System} (event : Event) (stepped : sys.step E event = some next)
      (guard : ∀ g choice routine, event = .run g choice → sys.goroutines[g]? = some routine → routine.lists →
        ReturnedSpent sys)
      (rest : ReachesSpending E next last) : ReachesSpending E sys last

-- The spending discipline over a synced, well-keyed cache: the lock
-- discipline holds; the outpoints the calls have deleted for their
-- transactions are distinct and gone from the cache; a selection not yet
-- deleted is distinct and spends none of them; the outpoints a call has locked
-- stay locked at the node until it returns; and a listing taken for a fill
-- holds none of the deleted outpoints.
structure SpendInv (sys : System) : Prop where
  lock : LockInv sys
  keyed : ∀ cache, sys.shared.unspent = some cache → WellKeyed cache
  distinct : sys.spent.Nodup
  gone : ∀ cache, sys.shared.unspent = some cache → ∀ op ∈ sys.spent, ∀ u ∈ cache.values, u.outPoint ≠ op
  pending : ∀ (g : Nat) (routine : Goroutine), sys.goroutines[g]? = some routine →
    (routine.selected.map (·.outPoint)).Nodup ∧ (∀ u ∈ routine.selected, u.outPoint ∉ sys.spent) ∧ routine.Builds
  reserved : ∀ (g : Nat) (routine : Goroutine), sys.goroutines[g]? = some routine →
    ∀ op ∈ routine.reserved, op ∈ sys.shared.node.locked
  listed : ∀ (g : Nat) (routine : Goroutine), sys.goroutines[g]? = some routine →
    ∀ u ∈ routine.listing, u.outPoint ∉ sys.spent

theorem listing_fresh {sys : System} (inv : SpendInv sys) (spentAtNode : ReturnedSpent sys) (minConf maxConf : Nat) :
    ∀ u ∈ sys.shared.node.listUnspentMinMax minConf maxConf, u.outPoint ∉ sys.spent := by
  intro u listed deleted
  obtain ⟨held,free⟩ := List.mem_filter.mp listed
  rcases System.spent_cases deleted with returned | ⟨g,routine,at_g,reserved⟩
  · exact spentAtNode _ returned u held rfl
  · have locked := inv.reserved g routine at_g _ reserved
    simp [locked] at free

section
variable {sys next : System} {g : Nat} {routine routine' : Goroutine}

theorem spendInv_keep (inv : SpendInv sys) (lock : LockInv next) (at_g : sys.goroutines[g]? = some routine)
    (shape : next.goroutines = sys.goroutines.set g routine') (spent : routine'.spent = routine.spent)
    (keyed : ∀ cache, next.shared.unspent = some cache → WellKeyed cache)
    (gone : ∀ cache, next.shared.unspent = some cache → ∀ op ∈ sys.spent, ∀ u ∈ cache.values, u.outPoint ≠ op)
    (pending : (routine'.selected.map (·.outPoint)).Nodup ∧ (∀ u ∈ routine'.selected, u.outPoint ∉ sys.spent) ∧
      routine'.Builds)
    (reserved : ∀ op ∈ routine'.reserved, op ∈ next.shared.node.locked)
    (kept : ∀ h r, h ≠ g → sys.goroutines[h]? = some r → ∀ op ∈ r.reserved, op ∈ next.shared.node.locked)
    (listed : ∀ u ∈ routine'.listing, u.outPoint ∉ sys.spent) : SpendInv next := by
  have spentSame : next.spent = sys.spent := by
    unfold System.spent
    rw [shape,spent_set_same at_g spent]
  refine ⟨lock,keyed,spentSame ▸ inv.distinct,spentSame ▸ gone,?_,?_,?_⟩ <;> rw [shape] <;> try rw [spentSame]
  · exact forall_set at_g pending fun h r _ at_h => inv.pending h r at_h
  · exact forall_set at_g reserved kept
  · exact forall_set at_g listed fun h r _ at_h => inv.listed h r at_h

theorem spendInv_quiet (inv : SpendInv sys) (lock : LockInv next) (at_g : sys.goroutines[g]? = some routine)
    (shape : next.goroutines = sys.goroutines.set g routine') (spent : routine'.spent = routine.spent)
    (cache : next.shared.unspent = sys.shared.unspent) (locks : sys.shared.node.locked ⊆ next.shared.node.locked)
    (selected : routine'.selected = [] ∨ routine'.selected = routine.selected) (builds : routine'.Builds)
    (reserved : ∀ op ∈ routine'.reserved, op ∈ routine.reserved) (listing : routine'.listing = []) :
    SpendInv next := by
  have ⟨nodup,apart,_⟩ := inv.pending g routine at_g
  refine spendInv_keep inv lock at_g shape spent (cache ▸ inv.keyed) (cache ▸ inv.gone) ?_
    (fun op mem => locks (inv.reserved g routine at_g op (reserved op mem)))
    (fun h r _ at_h op mem => locks (inv.reserved h r at_h op mem)) (by simp [listing])
  rcases selected with empty | same
  · simp [empty,builds]
  · exact ⟨same ▸ nodup,same ▸ apart,builds⟩

theorem spendInv_delete {f : UInt64} {amt : Int} {address : String} {sel : Selection} {tx : MsgTx}
    {cache : GoMap String ListUnspentResult} (inv : SpendInv sys) (lock : LockInv next)
    (at_g : sys.goroutines[g]? = some (.craft f amt address (.delete sel tx)))
    (shape : next.goroutines = sys.goroutines.set g (.craft f amt address (.unlockDelete sel tx)))
    (cached : sys.shared.unspent = some cache) (deleted : next.shared.unspent = some (deleteSelected sel cache))
    (locks : next.shared.node.locked = sys.shared.node.locked) : SpendInv next := by
  obtain ⟨nodup,apart,builds⟩ := inv.pending g _ at_g
  replace builds : tx.inputs = sel.selectedUtxos.map (·.outPoint) := builds
  have keyed := inv.keyed cache cached
  have grown : next.spent.Perm (sys.spent ++ tx.inputs) := by
    unfold System.spent
    rw [shape]
    exact spent_set_grow at_g rfl
  have fresh (op : OutPoint) (mem : op ∈ tx.inputs) (u : ListUnspentResult)
      (kept : u ∈ (deleteSelected sel cache).values) : u.outPoint ≠ op := fun same => by
    obtain ⟨v,chosen,rfl⟩ := List.mem_map.mp (builds ▸ mem)
    exact (mem_values_deleteSelected keyed kept).2 (List.mem_map.mpr ⟨v,chosen,(congrArg OutPoint.hash same).symm⟩)
  have coinSelect : sys.shared.coinSelectMtx = some g := (inv.lock.coinSelect g _ at_g).mp rfl
  have cacheHeld : sys.shared.unspentSyncMtx = some g := (inv.lock.cache g _ at_g).mp rfl
  have outside (h : Nat) (r : Goroutine) (other : h ≠ g) (at_h : sys.goroutines[h]? = some r) :
      (r.selected = [] ∧ r.Builds ∧ r.reserved = []) ∧ r.listing = [] :=
    ⟨Goroutine.outside_coinSelect (Bool.eq_false_iff.mpr fun holds =>
        other (Option.some.inj (coinSelect.symm.trans ((inv.lock.coinSelect h r at_h).mp holds))).symm),
      Goroutine.outside_cache (Bool.eq_false_iff.mpr fun holds =>
        other (Option.some.inj (cacheHeld.symm.trans ((inv.lock.cache h r at_h).mp holds))).symm)⟩
  refine ⟨lock,fun c same => ?_,?_,fun c same op mem u kept => ?_,?_,?_,?_⟩
  · rw [deleted,Option.some.injEq] at same
    exact same ▸ wellKeyed_deleteSelected keyed sel
  · refine grown.nodup_iff.mpr (List.nodup_append.mpr ⟨inv.distinct,builds ▸ nodup,fun op spentBefore mem => ?_⟩)
    obtain ⟨u,chosen,rfl⟩ := List.mem_map.mp (builds ▸ mem)
    exact apart u chosen spentBefore
  · rw [deleted,Option.some.injEq] at same
    subst same
    rcases List.mem_append.mp (grown.mem_iff.mp mem) with before | new
    · exact inv.gone cache cached op before u (mem_values_deleteSelected keyed kept).1
    · exact fresh op new u kept
  · rw [shape]
    refine forall_set at_g ⟨List.nodup_nil,(fun _ mem => nomatch mem),trivial⟩ fun h r other at_h => ?_
    obtain ⟨⟨empty,builds,-⟩,-⟩ := outside h r other at_h
    exact ⟨by simp [empty],by simp [empty],builds⟩
  · rw [shape,locks]
    exact forall_set at_g (fun op (mem : op ∈ tx.inputs) => inv.reserved g _ at_g op
      (show op ∈ sel.selectedUtxos.map (·.outPoint) from builds ▸ mem)) fun h r _ at_h => inv.reserved h r at_h
  · rw [shape]
    exact forall_set at_g (fun _ mem => nomatch mem) fun h r other at_h => by simp [(outside h r other at_h).2]

theorem spendInv_craft {E : Env} {f : UInt64} {amt : Int} {address : String} {pc pc' : CraftPc} {choice : Choice}
    (inv : SpendInv sys) (lock : LockInv next) (at_g : sys.goroutines[g]? = some (.craft f amt address pc))
    (shape : next.goroutines = sys.goroutines.set g (.craft f amt address pc'))
    (crafted : craftStep E g f amt address sys.shared pc choice = some (next.shared,pc')) : SpendInv next := by
  obtain ⟨s,routines⟩ := sys
  obtain ⟨s',routines'⟩ := next
  dsimp only at at_g shape crafted
  obtain ⟨cache,cached⟩ : ∃ cache, s.unspent = some cache := Option.isSome_iff_exists.mp inv.lock.cached
  have ⟨nodup,apart,builds⟩ := inv.pending g _ at_g
  have quiet := @spendInv_quiet ⟨s,routines⟩ ⟨s',routines'⟩ g _ _ inv lock at_g shape
  cases craftStep_sound crafted with
  | unlockNil | sync _ => cases inv.lock.nonNil g _ at_g
  | checkNilNil nil => cases nil.symm.trans cached
  | unlockAll =>
    -- the opening unlock-all: g holds coinSelectMtx, so no other call holds locks of its own
    have coinSelect : s.coinSelectMtx = some g := (inv.lock.coinSelect g _ at_g).mp rfl
    refine spendInv_keep inv lock at_g shape rfl inv.keyed inv.gone ⟨List.nodup_nil,(fun _ mem => nomatch mem),trivial⟩
      (fun _ mem => nomatch mem) (fun h r other at_h op mem => ?_) (fun _ mem => nomatch mem)
    have outside : r.holdsCoinSelect = false := Bool.eq_false_iff.mpr fun holds =>
      other (Option.some.inj (coinSelect.symm.trans ((inv.lock.coinSelect h r at_h).mp holds))).symm
    rw [(Goroutine.outside_coinSelect outside).2.2] at mem
    cases mem
  | @selectDone round amtNeeded order result perm settled =>
    rcases result with err | sel
    · exact quiet rfl rfl (fun _ mem => mem) (.inl rfl) trivial (fun _ mem => nomatch mem) rfl
    · -- a fresh selection from the cache spends nothing deleted
      rw [cached] at perm
      have within : sel.selectedUtxos.Subperm cache.values :=
        (coinSelectRound_first_inputs settled).sublist.subperm.trans perm.subperm
      exact spendInv_keep inv lock at_g shape rfl inv.keyed inv.gone
        ⟨outPoints_nodup (inv.keyed cache cached) within,
          fun u chosen deleted => inv.gone cache cached _ deleted u (within.subset chosen) rfl,trivial⟩
        (fun _ mem => nomatch mem) (fun h r _ at_h => inv.reserved h r at_h) (fun _ mem => nomatch mem)
  | @lockInput sel i input at_i =>
    refine spendInv_keep inv lock at_g shape rfl inv.keyed inv.gone ⟨nodup,apart,trivial⟩ (fun op mem => ?_)
      (fun h r _ at_h op mem => List.mem_cons_of_mem _ (inv.reserved h r at_h op mem)) (fun _ mem => nomatch mem)
    change op ∈ (sel.selectedUtxos.take (i+1)).map (·.outPoint) at mem
    simp only [List.take_succ,at_i,Option.toList,List.map_append,List.mem_append,List.map_cons,List.map_nil,
      List.mem_singleton] at mem
    rcases mem with old | rfl
    · exact List.mem_cons_of_mem _ (inv.reserved g _ at_g op old)
    · exact List.mem_cons_self _ _
  | @lockInputsDone sel i past =>
    refine quiet rfl rfl (fun _ mem => mem) (.inr rfl) trivial (fun op mem => ?_) rfl
    change op ∈ (sel.selectedUtxos.take i).map (·.outPoint)
    rwa [List.take_of_length_le (List.getElem?_eq_none_iff.mp past)]
  | delete => exact spendInv_delete inv lock at_g shape cached (by simp [cached]) rfl
  | @returning result =>
    rcases result with _ | ⟨tx,fee⟩ <;>
      exact quiet rfl (by simp) (fun _ mem => by simpa using mem) (.inl rfl) trivial (fun _ mem => nomatch mem) rfl
  | _ =>
    exact quiet rfl (by simp) (fun _ mem => by simpa using mem) (by first | exact .inl rfl | exact .inr rfl)
      (by trivial) (fun op mem => by first | exact mem | cases mem) rfl

theorem spendInv_sync {E : Env} {pc : SyncPc} {choice : Choice} (inv : SpendInv sys) (lock : LockInv next)
    (at_g : sys.goroutines[g]? = some (.sync pc)) (shape : next.goroutines = sys.goroutines.set g routine')
    (ran : (Goroutine.sync pc).step E g sys.shared choice = some (next.shared,routine'))
    (guard : (Goroutine.sync pc).lists → ReturnedSpent sys) : SpendInv next := by
  obtain ⟨s,routines⟩ := sys
  obtain ⟨s',routines'⟩ := next
  dsimp only at at_g shape ran
  obtain ⟨⟨s₁,after⟩,stepped,same⟩ := Option.map_eq_some'.mp ran
  cases same
  have quiet := @spendInv_quiet ⟨s,routines⟩ _ g _ _ inv lock at_g shape
  cases pc <;> simp only [syncStep] at stepped
  case lock =>
    split at stepped <;> cases stepped
    exact quiet rfl rfl (fun _ mem => mem) (.inl rfl) trivial (fun _ mem => nomatch mem) rfl
  case list =>
    split at stepped <;> cases stepped
    · exact quiet rfl rfl (fun _ mem => mem) (.inl rfl) trivial (fun _ mem => nomatch mem) rfl
    · exact spendInv_keep inv lock at_g shape rfl inv.keyed inv.gone ⟨List.nodup_nil,(fun _ mem => nomatch mem),trivial⟩
        (fun _ mem => nomatch mem) (fun h r _ at_h => inv.reserved h r at_h) (listing_fresh inv (guard rfl) _ _)
  case fill listing =>
    cases stepped
    refine spendInv_keep inv lock at_g shape rfl (fun c same => ?_) (fun c same op deleted u kept => ?_)
      ⟨List.nodup_nil,(fun _ mem => nomatch mem),trivial⟩ (fun _ mem => nomatch mem)
      (fun h r _ at_h => inv.reserved h r at_h) (fun _ mem => nomatch mem) <;> cases same
    · exact wellKeyed_unspentOf listing
    · exact fun eq => inv.listed g _ at_g u (mem_values_unspentOf kept) (eq ▸ deleted)
  case unlock =>
    cases stepped
    exact quiet rfl (by simp) (fun _ mem => by simpa using mem) (.inl rfl) trivial (fun _ mem => nomatch mem) rfl

end

theorem spendInv_step {E : Env} {sys next : System} {event : Event} (inv : SpendInv sys)
    (stepped : sys.step E event = some next)
    (guard : ∀ g choice routine, event = .run g choice → sys.goroutines[g]? = some routine → routine.lists →
      ReturnedSpent sys) : SpendInv next := by
  have lock := lockInv_step inv.lock stepped
  cases event with
  | broadcast g =>
    simp only [System.step] at stepped
    split at stepped <;> cases stepped
    exact ⟨lock,inv.keyed,inv.distinct,inv.gone,inv.pending,fun g r at_g op mem => by
      simpa [Node.send_locked] using inv.reserved g r at_g op mem,inv.listed⟩
  | run g choice =>
    cases at_g : sys.goroutines[g]? with
    | none => simp [System.step,at_g] at stepped
    | some routine =>
      obtain ⟨-,routine',ran,shape⟩ := step_run stepped at_g
      cases routine with
      | craft f amt address pc =>
        obtain ⟨pc',crafted,rfl⟩ := craft_step ran
        exact spendInv_craft inv lock at_g shape crafted
      | sync pc => exact spendInv_sync inv lock at_g shape ran (guard g choice _ rfl at_g)
      | synced => cases ran

theorem spendInv_reaches {E : Env} {sys last : System} (inv : SpendInv sys) (reaches : ReachesSpending E sys last) :
    SpendInv last := by
  induction reaches with
  | refl => exact inv
  | step _ stepped guard _ ih => exact ih (spendInv_step inv stepped guard)

theorem spendInv_start {sys : System} (fresh : Fresh sys)
    (keyed : ∀ cache, sys.shared.unspent = some cache → WellKeyed cache)
    (unspent : ∀ routine ∈ sys.goroutines, routine.spent = []) : SpendInv sys := by
  have spent : sys.spent = [] := by
    simp only [System.spent,List.flatten_eq_nil_iff,List.mem_map]
    rintro _ ⟨routine,mem,rfl⟩
    exact unspent routine mem
  have outside g routine (at_g : sys.goroutines[g]? = some routine) := fresh.outside routine (List.getElem?_mem at_g)
  refine ⟨fresh_lockInv fresh,keyed,spent ▸ List.nodup_nil,fun c _ op mem => by simp [spent] at mem,
    fun g r at_g => ?_,fun g r at_g op mem => ?_,fun g r at_g u mem => ?_⟩
  · obtain ⟨empty,builds,-⟩ := Goroutine.outside_coinSelect (outside g r at_g).2.1
    exact ⟨by simp [empty],by simp [empty],builds⟩
  · rw [(Goroutine.outside_coinSelect (outside g r at_g).2.1).2.2] at mem
    cases mem
  · rw [Goroutine.outside_cache (outside g r at_g).1] at mem
    cases mem

theorem SpendInv.returned_once {sys : System} (inv : SpendInv sys) :
    (returnedInputs sys).flatten.Nodup ∧
      ∀ cache, sys.shared.unspent = some cache →
        ∀ op ∈ (returnedInputs sys).flatten, ∀ u ∈ cache.values, u.outPoint ≠ op :=
  have sub := returnedInputs_sublist sys
  ⟨sub.nodup inv.distinct,fun cache cached op mem u kept => inv.gone cache cached op (sub.subset mem) u kept⟩

instance : DecidablePred ReturnedSpent := fun sys =>
  inferInstanceAs (Decidable (∀ op ∈ (returnedInputs sys).flatten, ∀ u ∈ sys.shared.node.utxos, u.outPoint ≠ op))

-- The check of a schedule: each step that lists comes when the transactions
-- returned so far are spent at the node.
def System.listsSafely (E : Env) : System → List Event → Bool
  | _,[] => true
  | sys,event :: rest =>
    (match event with
      | .run g _ => !((sys.goroutines[g]?.map Goroutine.lists).getD false) || decide (ReturnedSpent sys)
      | .broadcast _ => true) &&
    match sys.step E event with
    | some next => next.listsSafely E rest
    | none => false

theorem run_reachesSpending {E : Env} {sys last : System} {events : List Event}
    (ran : sys.run E events = some last) (safe : sys.listsSafely E events = true) : ReachesSpending E sys last := by
  induction events generalizing sys with
  | nil => cases ran; exact .refl _
  | cons event rest ih =>
    simp only [System.run,Option.bind_eq_some] at ran
    obtain ⟨next,stepped,ran⟩ := ran
    simp only [System.listsSafely,stepped,Bool.and_eq_true] at safe
    refine .step event stepped (fun g choice routine same at_g lists => ?_) (ih ran safe.2)
    subst same
    simpa [at_g,lists] using safe.1

theorem reachesSpending_of_crafts {E : Env} {sys last : System} (inv : LockInv sys)
    (crafts : ∀ (g : Nat) (routine : Goroutine), sys.goroutines[g]? = some routine → routine.isCraft)
    (reaches : Reaches E sys last) : ReachesSpending E sys last := by
  induction reaches with
  | refl => exact .refl _
  | @step sys next last event stepped rest ih =>
    have still : ∀ (g : Nat) (routine : Goroutine), next.goroutines[g]? = some routine → routine.isCraft := by
      cases event with
      | broadcast g =>
        simp only [System.step] at stepped
        split at stepped <;> cases stepped
        exact crafts
      | run g choice =>
        cases at_g : sys.goroutines[g]? with
        | none => simp [System.step,at_g] at stepped
        | some routine =>
          obtain ⟨-,routine',ran,shape⟩ := step_run stepped at_g
          rcases routine with ⟨f,amt,address,pc⟩ | _ | _
          case sync | synced => cases crafts g _ at_g
          obtain ⟨pc',-,rfl⟩ := craft_step ran
          rw [shape]
          exact forall_set at_g rfl fun h r _ at_h => crafts h r at_h
    refine .step event stepped (fun g choice routine _ at_g lists => ?_) (ih (lockInv_step inv stepped) still)
    rcases routine with ⟨_,_,_,pc⟩ | _ | _
    · have onPath := inv.nonNil g _ at_g
      cases pc <;> first | cases lists | cases onPath
    all_goals cases crafts g _ at_g

end Payserver.Bitcoind
