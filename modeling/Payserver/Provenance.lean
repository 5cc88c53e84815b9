import Payserver.Deadlock
import Payserver.Spending

namespace Payserver.Bitcoind

-- What a call's arguments need of a list of outputs for coinSelect's sums
-- over any cache drawn from it not to overflow.
structure Fits (W : P2PKHWeight) (feeRatePerWeight : UInt64) (amt : Int) (unspent : List ListUnspentResult) :
    Prop where
  nonneg : ∀ u ∈ unspent, 0 ≤ u.amount
  pos : 0 < amt
  fits : satoshi unspent + amt + W.weight unspent.length 2 * feeRatePerWeight.toNat < 2^63

theorem Fits.noOverflow {W : P2PKHWeight} {f : UInt64} {amt : Int} {unspent : List ListUnspentResult}
    {m : GoMap String ListUnspentResult} (fits : Fits W f amt unspent) (sub : m.values.Sublist unspent) :
    NoOverflow W f amt m := by
  have sum := satoshi_sublist_le sub fits.nonneg
  have size : m.len ≤ unspent.length := by simpa using sub.length_le
  have weight : W.weight m.len 2 * f.toNat ≤ W.weight unspent.length 2 * f.toNat :=
    Nat.mul_le_mul_right _ (W.mono 2 size)
  have := fits.fits
  have cast : (W.weight m.len 2 : Int) * f.toNat ≤ W.weight unspent.length 2 * f.toNat := by exact_mod_cast weight
  exact ⟨fun u mem => fits.nonneg u (sub.subset mem),fits.pos,by omega⟩

-- Every output the system holds stems from the cache or the node's outputs at
-- the start: the node only spends outputs, a fill caches a listing of them,
-- and a delete shrinks the cache.
structure Shrinks (cache0 utxos0 : List ListUnspentResult) (sys : System) : Prop where
  node : sys.shared.node.utxos.Sublist utxos0
  cache : ∀ m, sys.shared.unspent = some m → m.values.Sublist cache0 ∨ m.values.Sublist utxos0
  listed : ∀ (g : Nat) (routine : Goroutine), sys.goroutines[g]? = some routine → routine.listing.Sublist utxos0

theorem Node.send_utxos_sublist (node : Node) (tx : MsgTx) : (node.send tx).utxos.Sublist node.utxos := by
  unfold Node.send
  split
  exacts [List.filter_sublist _,List.Sublist.refl _]

theorem values_deleteSelected_sublist (sel : Selection) (cache : GoMap String ListUnspentResult) :
    (deleteSelected sel cache).values.Sublist cache.values := by
  simp only [GoMap.values,deleteSelected_entries]
  exact (List.filter_sublist _).map _

theorem routine_effect {E : Env} {g : Nat} {s s' : Shared} {routine routine' : Goroutine} {choice : Choice}
    (nonNil : routine.nilPath = false) (ran : routine.step E g s choice = some (s',routine')) :
    s'.node.utxos = s.node.utxos ∧ routine'.listing.Sublist s.node.utxos ∧
      (s'.unspent = s.unspent ∨ routine.holdsCache ∧
        ((∃ sel, s'.unspent = s.unspent.map (deleteSelected sel)) ∨ s'.unspent = some (unspentOf routine.listing))) := by
  cases routine with
  | craft f amt address pc =>
    obtain ⟨pc',crafted,rfl⟩ := craft_step ran
    cases craftStep_sound crafted with
    | delete => exact ⟨rfl,List.nil_sublist _,.inr ⟨rfl,.inl ⟨_,rfl⟩⟩⟩
    | unlockNil | sync _ => cases nonNil
    -- every other step keeps c.unspent and the node's outputs
    | _ => exact ⟨by simp,List.nil_sublist _,.inl (by simp)⟩
  | sync pc =>
    obtain ⟨⟨s₁,after⟩,stepped,same⟩ := Option.map_eq_some'.mp ran
    cases same
    cases pc <;> simp only [syncStep] at stepped
    case lock =>
      split at stepped <;> cases stepped
      exact ⟨rfl,List.nil_sublist _,.inl rfl⟩
    case list =>
      split at stepped <;> cases stepped
      exacts [⟨rfl,List.nil_sublist _,.inl rfl⟩,⟨rfl,List.filter_sublist _,.inl rfl⟩]
    case fill => cases stepped; exact ⟨rfl,List.nil_sublist _,.inr ⟨rfl,.inr rfl⟩⟩
    case unlock => cases stepped; exact ⟨by simp,List.nil_sublist _,.inl (by simp)⟩
  | synced => cases ran

theorem shrinks_step {E : Env} {cache0 utxos0 : List ListUnspentResult} {sys next : System} {event : Event}
    (inv : LockInv sys) (shrinks : Shrinks cache0 utxos0 sys) (stepped : sys.step E event = some next) :
    Shrinks cache0 utxos0 next := by
  cases event with
  | broadcast g =>
    simp only [System.step] at stepped
    split at stepped <;> cases stepped
    exact ⟨(Node.send_utxos_sublist _ _).trans shrinks.node,shrinks.cache,shrinks.listed⟩
  | run g choice =>
    cases at_g : sys.goroutines[g]? with
    | none => simp [System.step,at_g] at stepped
    | some routine =>
      obtain ⟨-,routine',ran,shape⟩ := step_run stepped at_g
      obtain ⟨utxos,listing,cache⟩ := routine_effect (inv.nonNil g _ at_g) ran
      refine ⟨utxos ▸ shrinks.node,fun m' cached => ?_,?_⟩
      · rcases cache with same | ⟨-,⟨sel,deleted⟩ | filled⟩
        · exact shrinks.cache m' (same ▸ cached)
        · obtain ⟨m,old,rfl⟩ := Option.map_eq_some'.mp (deleted ▸ cached)
          have sub := values_deleteSelected_sublist sel m
          exact (shrinks.cache m old).imp sub.trans sub.trans
        · cases filled.symm.trans cached
          exact .inr ((values_unspentOf_sublist _).trans (shrinks.listed g _ at_g))
      · rw [shape]
        exact forall_set at_g (listing.trans shrinks.node) fun h r _ at_h => shrinks.listed h r at_h

-- A call's arguments fit both sources of outputs.
def Goroutine.Fits (W : P2PKHWeight) (cache0 utxos0 : List ListUnspentResult) : Goroutine → Prop
  | .craft f amt _ _ => Bitcoind.Fits W f amt cache0 ∧ Bitcoind.Fits W f amt utxos0
  | _ => True

theorem Goroutine.fits_step {E : Env} {g : Nat} {W : P2PKHWeight} {cache0 utxos0 : List ListUnspentResult}
    {s s' : Shared} {routine routine' : Goroutine} {choice : Choice} (fits : routine.Fits W cache0 utxos0)
    (ran : routine.step E g s choice = some (s',routine')) : routine'.Fits W cache0 utxos0 := by
  cases routine with
  | craft =>
    obtain ⟨pc',-,rfl⟩ := craft_step ran
    exact fits
  | sync =>
    obtain ⟨⟨s₁,after⟩,-,same⟩ := Option.map_eq_some'.mp ran
    cases after <;> cases same <;> trivial
  | synced => cases ran

theorem cache_kept {E : Env} {sys next : System} {g h : Nat} {choice : Choice} {r : Goroutine} (inv : LockInv sys)
    (stepped : sys.step E (.run g choice) = some next) (other : h ≠ g) (at_h : sys.goroutines[h]? = some r)
    (holds : r.holdsCache) : next.shared.unspent = sys.shared.unspent := by
  cases at_g : sys.goroutines[g]? with
  | none => simp [System.step,at_g] at stepped
  | some routine =>
    obtain ⟨-,routine',ran,-⟩ := step_run stepped at_g
    obtain ⟨-,-,cache⟩ := routine_effect (inv.nonNil g _ at_g) ran
    refine cache.resolve_right fun ⟨held,_⟩ => other ?_
    exact Option.some.inj (((inv.cache h r at_h).mp holds).symm.trans ((inv.cache g routine at_g).mp held))

-- A state of a schedule under the mutex discipline whose outputs stem from
-- the start's cache0 and utxos0, and whose calls' arguments fit both.
structure Sound (W : P2PKHWeight) (cache0 utxos0 : List ListUnspentResult) (sys : System) : Prop where
  lock : LockInv sys
  owned : Owned sys
  shrinks : Shrinks cache0 utxos0 sys
  fits : ∀ (g : Nat) (routine : Goroutine), sys.goroutines[g]? = some routine → routine.Fits W cache0 utxos0

theorem Sound.sized {W : P2PKHWeight} {cache0 utxos0 : List ListUnspentResult} {sys : System}
    (sound : Sound W cache0 utxos0 sys) {g : Nat} {f : UInt64} {amt : Int} {address : String} {pc : CraftPc}
    (at_g : sys.goroutines[g]? = some (.craft f amt address pc)) :
    ∃ m, sys.shared.unspent = some m ∧ (m.values.Sublist cache0 ∨ m.values.Sublist utxos0) ∧
      m.len ≤ max cache0.length utxos0.length ∧ NoOverflow W f amt m := by
  obtain ⟨m,cached⟩ := Option.isSome_iff_exists.mp sound.lock.cached
  have fits : Fits W f amt cache0 ∧ Fits W f amt utxos0 := sound.fits g _ at_g
  have size := fun {l : List ListUnspentResult} (sub : m.values.Sublist l) => show m.len ≤ l.length by
    simpa using sub.length_le
  rcases sound.shrinks.cache m cached with sub | sub
  · exact ⟨m,cached,.inl sub,(size sub).trans (Nat.le_max_left _ _),fits.1.noOverflow sub⟩
  · exact ⟨m,cached,.inr sub,(size sub).trans (Nat.le_max_right _ _),fits.2.noOverflow sub⟩

section
variable {E : Env} {cache0 utxos0 : List ListUnspentResult}

theorem sound_step {sys next : System} {event : Event} (sound : Sound E.weight cache0 utxos0 sys)
    (stepped : sys.step E event = some next) : Sound E.weight cache0 utxos0 next := by
  refine ⟨lockInv_step sound.lock stepped,owned_step sound.lock sound.owned stepped,
    shrinks_step sound.lock sound.shrinks stepped,?_⟩
  cases event with
  | broadcast g =>
    simp only [System.step] at stepped
    split at stepped <;> cases stepped
    exact sound.fits
  | run g choice =>
    cases at_g : sys.goroutines[g]? with
    | none => simp [System.step,at_g] at stepped
    | some routine =>
      obtain ⟨-,routine',ran,shape⟩ := step_run stepped at_g
      rw [shape]
      exact forall_set at_g (Goroutine.fits_step (sound.fits g routine at_g) ran) fun h r _ at_h => sound.fits h r at_h

theorem sound_start {sys : System} {m : GoMap String ListUnspentResult} (fresh : Fresh sys)
    (cached : sys.shared.unspent = some m)
    (start : ∀ routine ∈ sys.goroutines, routine = .sync .lock ∨ ∃ f amt address,
      routine = .craft f amt address .lockCoinSelect ∧ Fits E.weight f amt m.values ∧
        Fits E.weight f amt sys.shared.node.utxos) :
    Sound E.weight m.values sys.shared.node.utxos sys := by
  have begins g r (at_g : sys.goroutines[g]? = some r) := start r (List.getElem?_mem at_g)
  refine ⟨fresh_lockInv fresh,fresh_owned fresh,
    ⟨List.Sublist.refl _,fun m' same => .inl (by cases cached.symm.trans same; rfl),fun g r at_g => ?_⟩,
    fun g r at_g => ?_⟩ <;> rcases begins g r at_g with rfl | ⟨f,amt,address,rfl,fits⟩
  exacts [List.nil_sublist _,List.nil_sublist _,trivial,fits]

end

theorem syncedScenario_begins : ∀ routine ∈ syncedScenario.goroutines, routine = .sync .lock ∨ ∃ f amt address,
    routine = .craft f amt address .lockCoinSelect ∧ Fits (.linear 1 1) f amt (unspentOf [⟨"aa",0,10,6⟩]).values ∧
      Fits (.linear 1 1) f amt syncedScenario.shared.node.utxos := by
  have fits : Fits (.linear 1 1) 1 5 [⟨"aa",0,10,6⟩] := ⟨by decide,by decide,by decide⟩
  intro routine mem
  rcases List.mem_pair.mp mem with rfl | rfl
  exacts [.inr ⟨1,5,"dest",rfl,fits,fits⟩,.inl rfl]

end Payserver.Bitcoind
