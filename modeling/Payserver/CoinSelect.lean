import Payserver.SelectInputs

namespace Payserver.Bitcoind

structure Selection where
  selectedUtxos : List ListUnspentResult
  changeAmt : Int
  requiredFee : Int
  deriving DecidableEq, Repr

-- How one pass of coinSelect's for loop ends: `continue` with a larger
-- amtNeeded, or a return.
inductive Round where
  | retry (amtNeeded : Int)
  | done (result : Except ErrInsufficientFunds Selection)

-- The estimate of coinSelect: one P2PKH input per selected output, then the
-- payment output and the change output it always assumes.
def estimateFor (selectedUtxos : List ListUnspentResult) : TxWeightEstimator :=
  ((selectedUtxos.foldl (fun (estimate : TxWeightEstimator) _ => estimate.addP2PKHInput) ⟨0,0⟩).addP2PKHOutput).addP2PKHOutput

theorem foldl_addP2PKHInput (selectedUtxos : List ListUnspentResult) (e : TxWeightEstimator) :
    selectedUtxos.foldl (fun (estimate : TxWeightEstimator) _ => estimate.addP2PKHInput) e =
      ⟨e.inputCount+selectedUtxos.length,e.outputCount⟩ := by
  induction selectedUtxos generalizing e with
  | nil => rfl
  | cons _ rest ih =>
    rw [List.foldl_cons,ih]
    simp only [TxWeightEstimator.addP2PKHInput,List.length_cons,Nat.add_assoc,Nat.add_comm 1]

@[simp] theorem estimateFor_weight (W : P2PKHWeight) (selectedUtxos : List ListUnspentResult) :
    (estimateFor selectedUtxos).weight W = W.weight selectedUtxos.length 2 := by
  simp [estimateFor,foldl_addP2PKHInput,TxWeightEstimator.weight,TxWeightEstimator.addP2PKHOutput]

def coinSelectRound (W : P2PKHWeight) (feeRatePerWeight : UInt64) (amt amtNeeded : Int)
    (range : List ListUnspentResult) : Round :=
  match selectInputs amtNeeded range with
  | .error err => .done (.error err)
  | .ok (totalSat,selectedUtxos) =>
    let overShootAmt := int64 (totalSat - amt)
    let requiredFee := feeOf ((estimateFor selectedUtxos).weight W) feeRatePerWeight
    if overShootAmt < requiredFee then .retry (int64 (amt + requiredFee))
    else .done (.ok ⟨selectedUtxos,int64 (overShootAmt - requiredFee),requiredFee⟩)

theorem coinSelectRound_first_inputs {W : P2PKHWeight} {f : UInt64} {amt amtNeeded : Int} {range : List ListUnspentResult}
    {sel : Selection} (settled : coinSelectRound W f amt amtNeeded range = .done (.ok sel)) :
    sel.selectedUtxos <+: range := by
  unfold coinSelectRound at settled
  split at settled
  · cases settled
  · rename_i picked
    simp only at settled
    split at settled
    · cases settled
    · cases settled
      simpa using loop_first_inputs amtNeeded range [] picked

-- Go starts each range over a map at a fresh, unspecified order: one
-- enumeration of the map's entries per pass of the loop.
structure MapOrder (unspent : GoMap String ListUnspentResult) where
  range : Nat → List ListUnspentResult
  perm : ∀ round, (range round).Perm unspent.values

def MapOrder.fixed {unspent : GoMap String ListUnspentResult} (range : List ListUnspentResult)
    (perm : range.Perm unspent.values) : MapOrder unspent :=
  ⟨fun _ => range,fun _ => perm⟩

def coinSelect.loop (W : P2PKHWeight) (feeRatePerWeight : UInt64) (amt : Int)
    (ranges : Nat → List ListUnspentResult) : Nat → Nat → Int → Option (Except ErrInsufficientFunds Selection)
  | 0,_,_ => none
  | fuel+1,round,amtNeeded =>
    match coinSelectRound W feeRatePerWeight amt amtNeeded (ranges round) with
    | .done result => some result
    | .retry amtNeeded => coinSelect.loop W feeRatePerWeight amt ranges fuel (round+1) amtNeeded

-- coinSelect's `for {}` allowed `fuel` passes: none when it has not returned
-- by then.
def coinSelect (W : P2PKHWeight) (feeRatePerWeight : UInt64) (amt : Int)
    (unspent : GoMap String ListUnspentResult) (order : MapOrder unspent) (fuel : Nat) :
    Option (Except ErrInsufficientFunds Selection) :=
  coinSelect.loop W feeRatePerWeight amt order.range fuel 0 amt

theorem loop_done {W : P2PKHWeight} {f : UInt64} {amt amtNeeded : Int} {ranges : Nat → List ListUnspentResult}
    {fuel round : Nat} {r : Except ErrInsufficientFunds Selection}
    (ended : coinSelectRound W f amt amtNeeded (ranges round) = .done r) :
    coinSelect.loop W f amt ranges (fuel+1) round amtNeeded = some r := by
  rw [coinSelect.loop,ended]

theorem loop_retry {W : P2PKHWeight} {f : UInt64} {amt amtNeeded next : Int} {ranges : Nat → List ListUnspentResult}
    {fuel round : Nat} (continued : coinSelectRound W f amt amtNeeded (ranges round) = .retry next) :
    coinSelect.loop W f amt ranges (fuel+1) round amtNeeded = coinSelect.loop W f amt ranges fuel (round+1) next := by
  rw [coinSelect.loop,continued]

-- The loop entered with amtNeeded can return r, each pass ranging over the map
-- in an order of its own.
inductive SelectsFrom (W : P2PKHWeight) (f : UInt64) (amt : Int) (unspent : GoMap String ListUnspentResult) :
    Int → Except ErrInsufficientFunds Selection → Prop
  | done {amtNeeded : Int} {range : List ListUnspentResult} {r : Except ErrInsufficientFunds Selection} :
      range.Perm unspent.values → coinSelectRound W f amt amtNeeded range = .done r → SelectsFrom W f amt unspent amtNeeded r
  | retry {amtNeeded next : Int} {range : List ListUnspentResult} {r : Except ErrInsufficientFunds Selection} :
      range.Perm unspent.values → coinSelectRound W f amt amtNeeded range = .retry next →
      SelectsFrom W f amt unspent next r → SelectsFrom W f amt unspent amtNeeded r

theorem loop_shift {W : P2PKHWeight} {f : UInt64} {amt : Int} (first : List ListUnspentResult)
    (ranges : Nat → List ListUnspentResult) (fuel round : Nat) (amtNeeded : Int) :
    coinSelect.loop W f amt (fun i => Nat.casesOn i first ranges) fuel (round+1) amtNeeded =
      coinSelect.loop W f amt ranges fuel round amtNeeded := by
  induction fuel generalizing round amtNeeded with
  | zero => rfl
  | succ fuel ih =>
    simp only [coinSelect.loop]
    split <;> simp only [ih]

theorem selectsFrom_loop {W : P2PKHWeight} {f : UInt64} {amt amtNeeded : Int}
    {unspent : GoMap String ListUnspentResult} {r : Except ErrInsufficientFunds Selection}
    (selects : SelectsFrom W f amt unspent amtNeeded r) :
    ∃ order : MapOrder unspent, ∃ fuel, coinSelect.loop W f amt order.range fuel 0 amtNeeded = some r := by
  induction selects with
  | done perm ended => exact ⟨.fixed _ perm,1,loop_done ended⟩
  | @retry _ _ range _ perm continued _ ih =>
    obtain ⟨order,fuel,returned⟩ := ih
    refine ⟨⟨fun i => Nat.casesOn i range order.range,fun i => by cases i <;> simp [perm,order.perm]⟩,fuel+1,?_⟩
    rw [loop_retry continued,loop_shift]
    exact returned

def feeFor (W : P2PKHWeight) (feeRatePerWeight : UInt64) (k : Nat) : Int :=
  (W.weight k 2 * feeRatePerWeight.toNat : Nat)

theorem feeFor_mono (W : P2PKHWeight) (feeRatePerWeight : UInt64) {k l : Nat} (le : k ≤ l) :
    feeFor W feeRatePerWeight k ≤ feeFor W feeRatePerWeight l :=
  Int.ofNat_le.mpr (Nat.mul_le_mul_right _ (W.mono 2 le))

theorem feeFor_nonneg (W : P2PKHWeight) (feeRatePerWeight : UInt64) (k : Nat) :
    0 ≤ feeFor W feeRatePerWeight k := Int.ofNat_nonneg _

-- The precondition the coinSelect theorems share: non-negative amounts, a
-- positive amt, and room in int64 for the map's total, amt and the fee of a
-- transaction spending the whole map.
structure NoOverflow (W : P2PKHWeight) (feeRatePerWeight : UInt64) (amt : Int)
    (unspent : GoMap String ListUnspentResult) : Prop where
  nonneg : ∀ u ∈ unspent.values, 0 ≤ u.amount
  pos : 0 < amt
  fits : satoshi unspent.values + amt + W.weight unspent.len 2 * feeRatePerWeight.toNat < 2^63

section
variable {W : P2PKHWeight} {f : UInt64} {amt : Int} {unspent : GoMap String ListUnspentResult}

theorem NoOverflow.total_fits (bounded : NoOverflow W f amt unspent) :
    satoshi unspent.values + amt + feeFor W f unspent.len < 2^63 := by
  have := bounded.fits; unfold feeFor; omega

theorem NoOverflow.prefixes (bounded : NoOverflow W f amt unspent) {range : List ListUnspentResult}
    (perm : range.Perm unspent.values) : PrefixesFit range := by
  have nonneg : ∀ u ∈ range, 0 ≤ u.amount := fun u mem => bounded.nonneg u (perm.mem_iff.mp mem)
  have total := satoshi_perm perm
  have := bounded.total_fits
  have := bounded.pos
  have := feeFor_nonneg W f unspent.len
  intro k _
  have := satoshi_take_le nonneg k
  have := @satoshi_nonneg (range.take k) (fun u mem => nonneg u (List.mem_of_mem_take mem))
  omega

theorem NoOverflow.fee_exact (bounded : NoOverflow W f amt unspent) {k : Nat} (within : k ≤ unspent.len) :
    feeOf (W.weight k 2) f = feeFor W f k := by
  have := bounded.total_fits
  have := satoshi_nonneg bounded.nonneg
  have := bounded.pos
  have := Nat.mul_le_mul_right f.toNat (W.mono 2 within)
  have fits : W.weight k 2 * f.toNat < 2^63 := by unfold feeFor at *; omega
  exact feeOf_exact fits

theorem round_cases (bounded : NoOverflow W f amt unspent) {range : List ListUnspentResult}
    (perm : range.Perm unspent.values) {c : Int} (lo : 0 ≤ c) (hi : c ≤ feeFor W f unspent.len) :
    (satoshi unspent.values < amt + c ∧
      coinSelectRound W f amt (amt + c) range = .done (.error ⟨amt + c,satoshi unspent.values⟩)) ∨
    ∃ k, 1 ≤ k ∧ k ≤ unspent.len ∧ amt + c ≤ satoshi (range.take k) ∧
      (∀ j, 1 ≤ j → j < k → satoshi (range.take j) < amt + c) ∧
      ((satoshi (range.take k) < amt + feeFor W f k ∧
          coinSelectRound W f amt (amt + c) range = .retry (amt + feeFor W f k)) ∨
       (amt + feeFor W f k ≤ satoshi (range.take k) ∧
          coinSelectRound W f amt (amt + c) range =
            .done (.ok ⟨range.take k,satoshi (range.take k) - amt - feeFor W f k,feeFor W f k⟩))) := by
  have total := satoshi_perm perm
  have length : range.length = unspent.len := by simp [perm.length_eq]
  have := bounded.total_fits
  have := bounded.pos
  rcases selectInputs_cases (amt + c) range (bounded.prefixes perm) with ⟨short,sel⟩ | ⟨k,pos,within,covers,short,sel⟩
  · refine .inl ⟨?_,by rw [coinSelectRound,sel,total]⟩
    by_cases empty : range = []
    · subst empty; simp at total; omega
    · have := short range.length (List.length_pos.mpr empty) le_rfl
      simp at this; omega
  · refine .inr ⟨k,pos,by omega,covers,short,?_⟩
    have nonneg : ∀ u ∈ range, 0 ≤ u.amount := fun u mem => bounded.nonneg u (perm.mem_iff.mp mem)
    have := satoshi_take_le nonneg k
    have fee := bounded.fee_exact (show k ≤ unspent.len by omega)
    have := feeFor_mono W f (show k ≤ unspent.len by omega)
    have := feeFor_nonneg W f k
    have overshoot : int64 (satoshi (range.take k) - amt) = satoshi (range.take k) - amt :=
      int64_of_range (by omega) (by omega)
    simp only [coinSelectRound,sel,estimateFor_weight,List.length_take,Nat.min_eq_left within,fee,overshoot]
    by_cases under : satoshi (range.take k) - amt < feeFor W f k
    · exact .inl ⟨by omega,by rw [if_pos under,int64_of_range (by omega) (by omega)]⟩
    · exact .inr ⟨by omega,by rw [if_neg under,int64_of_range (by omega) (by omega)]⟩

-- Where the loop stands: amtNeeded is amt + c, and c already pays the fee of
-- every selection of at most `floor` inputs, so a pass that continues selected
-- more than `floor` inputs.
structure Progress (W : P2PKHWeight) (f : UInt64) (unspent : GoMap String ListUnspentResult)
    (c : Int) (floor : Nat) : Prop where
  lo : 0 ≤ c
  hi : c ≤ feeFor W f unspent.len
  within : floor ≤ unspent.len
  paid : ∀ j, 1 ≤ j → j ≤ floor → feeFor W f j ≤ c

theorem progress_start : Progress W f unspent 0 0 :=
  ⟨le_rfl,feeFor_nonneg W f _,Nat.zero_le _,fun _ lo hi => absurd hi (by omega)⟩

-- What the loop returns: a selection that pays amt and its own fee from
-- distinct entries, or an error naming the whole map as available.
def Settles (W : P2PKHWeight) (f : UInt64) (amt : Int) (unspent : GoMap String ListUnspentResult) :
    Except ErrInsufficientFunds Selection → Prop
  | .ok s => s.selectedUtxos.Subperm unspent.values ∧ s.requiredFee = feeFor W f s.selectedUtxos.length ∧
      satoshi s.selectedUtxos = amt + s.requiredFee + s.changeAmt ∧ 0 ≤ s.changeAmt
  | .error e => e.amountAvailable = satoshi unspent.values ∧ satoshi unspent.values < e.amountNeeded ∧
      e.amountNeeded ≤ amt + feeFor W f unspent.len

theorem round_step (bounded : NoOverflow W f amt unspent) {range : List ListUnspentResult}
    (perm : range.Perm unspent.values) {c : Int} {floor : Nat} (progress : Progress W f unspent c floor) :
    (∃ r, coinSelectRound W f amt (amt + c) range = .done r ∧ Settles W f amt unspent r) ∨
    ∃ k, Progress W f unspent (feeFor W f k) k ∧ floor < k ∧
      coinSelectRound W f amt (amt + c) range = .retry (amt + feeFor W f k) := by
  rcases round_cases bounded perm progress.lo progress.hi with
    ⟨short,ended⟩ | ⟨k,pos,within,covers,_,⟨under,ended⟩ | ⟨paid,ended⟩⟩
  · exact .inl ⟨.error ⟨amt + c,satoshi unspent.values⟩,ended,rfl,short,by have := progress.hi; dsimp only; omega⟩
  · have above : floor < k := Nat.lt_of_not_le fun le => by have := progress.paid k pos le; omega
    exact .inr ⟨k,⟨feeFor_nonneg W f k,feeFor_mono W f within,within,fun j _ le => feeFor_mono W f le⟩,above,ended⟩
  · have length : (range.take k).length = k := by simp [perm.length_eq]; omega
    exact .inl ⟨.ok ⟨_,_,feeFor W f k⟩,ended,(List.take_sublist _ _).subperm.trans perm.subperm,
      by dsimp only; rw [length],by dsimp only; omega,by dsimp only; omega⟩

theorem loop_step (bounded : NoOverflow W f amt unspent) (order : MapOrder unspent) {c : Int} {floor : Nat}
    (progress : Progress W f unspent c floor) (fuel round : Nat) :
    (∃ r, coinSelect.loop W f amt order.range (fuel+1) round (amt + c) = some r ∧ Settles W f amt unspent r) ∨
    ∃ k, Progress W f unspent (feeFor W f k) k ∧ floor < k ∧
      coinSelect.loop W f amt order.range (fuel+1) round (amt + c) =
        coinSelect.loop W f amt order.range fuel (round+1) (amt + feeFor W f k) := by
  rcases round_step bounded (order.perm round) progress with ⟨r,ended,settles⟩ | ⟨k,next,above,continued⟩
  · exact .inl ⟨r,loop_done ended,settles⟩
  · exact .inr ⟨k,next,above,loop_retry continued⟩

theorem loop_settles (bounded : NoOverflow W f amt unspent) (order : MapOrder unspent) {r}
    {fuel round : Nat} {c : Int} {floor : Nat} (progress : Progress W f unspent c floor)
    (returned : coinSelect.loop W f amt order.range fuel round (amt + c) = some r) : Settles W f amt unspent r := by
  induction fuel generalizing round c floor with
  | zero => cases returned
  | succ fuel ih =>
    rcases loop_step bounded order progress fuel round with ⟨_,ended,settles⟩ | ⟨k,next,_,continued⟩
    · rw [ended] at returned; cases returned; exact settles
    · rw [continued] at returned; exact ih next returned

theorem loop_returns (bounded : NoOverflow W f amt unspent) (order : MapOrder unspent)
    {fuel round : Nat} {c : Int} {floor : Nat} (progress : Progress W f unspent c floor)
    (enough : unspent.len - floor < fuel) : ∃ r, coinSelect.loop W f amt order.range fuel round (amt + c) = some r := by
  induction fuel generalizing round c floor with
  | zero => omega
  | succ fuel ih =>
    rcases loop_step bounded order progress fuel round with ⟨r,ended,_⟩ | ⟨k,next,above,continued⟩
    · exact ⟨r,ended⟩
    · rw [continued]; exact ih next (by have := next.within; omega)

theorem coinSelect_settles (bounded : NoOverflow W f amt unspent) (order : MapOrder unspent) {fuel : Nat} {r}
    (returned : coinSelect W f amt unspent order fuel = some r) : Settles W f amt unspent r :=
  loop_settles bounded order progress_start (by simpa [coinSelect] using returned)

end

theorem coinSelect_success_sound (W : P2PKHWeight) (feeRatePerWeight : UInt64) (amt : Int)
    (unspent : GoMap String ListUnspentResult) (order : MapOrder unspent) (fuel : Nat) (s : Selection)
    (bounded : NoOverflow W feeRatePerWeight amt unspent)
    (returned : coinSelect W feeRatePerWeight amt unspent order fuel = some (.ok s)) :
    s.selectedUtxos.Subperm unspent.values ∧
    s.requiredFee = W.weight s.selectedUtxos.length 2 * feeRatePerWeight.toNat ∧
    satoshi s.selectedUtxos = amt + s.requiredFee + s.changeAmt ∧ 0 ≤ s.changeAmt := by
  obtain ⟨distinct,fee,paid,change⟩ := coinSelect_settles bounded order returned
  exact ⟨distinct,by rw [fee,feeFor,Int.ofNat_mul],paid,change⟩

def scenarioOrder : MapOrder scenarioCache := .fixed scenarioCache.values (.refl _)

-- The spec's scenario at fee rate 0: one pass over txA and txB pays 6.
example : coinSelect (.linear 1 1) 0 6 scenarioCache scenarioOrder 1 = some (.ok ⟨scenarioCache.values,2,0⟩) := by rfl

-- At fee rate 1 the first pass takes txA alone, whose overshoot of 1 is short
-- of its fee of 3; the retry needs 7, takes both outputs and pays a fee of 4.
theorem coinSelect_retry_scenario :
    NoOverflow (.linear 1 1) 1 4 scenarioCache ∧
    coinSelect (.linear 1 1) 1 4 scenarioCache scenarioOrder 1 = none ∧
    coinSelect (.linear 1 1) 1 4 scenarioCache scenarioOrder 2 = some (.ok ⟨scenarioCache.values,0,4⟩) ∧
    scenarioCache.values.Subperm scenarioCache.values ∧
    (4 : Int) = (P2PKHWeight.linear 1 1).weight scenarioCache.values.length 2 * (1 : UInt64).toNat ∧
    satoshi scenarioCache.values = 4 + 4 + 0 ∧ (0 : Int) ≤ 0 :=
  have bounded : NoOverflow (.linear 1 1) 1 4 scenarioCache := ⟨by decide,by decide,by decide⟩
  have returned : coinSelect (.linear 1 1) 1 4 scenarioCache scenarioOrder 2 =
      some (.ok ⟨scenarioCache.values,0,4⟩) := by rfl
  ⟨bounded,by rfl,returned,coinSelect_success_sound _ _ _ _ _ _ _ bounded returned⟩

theorem feeOf_max_rate {weight : Nat} (pos : 0 < weight) (fits : weight < 2^63) :
    feeOf weight 18446744073709551615 = -(weight : Int) := by
  have wrapped : (UInt64.ofNat weight * 18446744073709551615).toNat = 2^64 - weight := by
    change weight % 2^64 * 18446744073709551615 % 2^64 = _
    omega
  rw [feeOf,wrapped,int64]; omega

theorem coinSelect_fee_wraps (W : P2PKHWeight) (pos : 0 < W.weight 1 2) (fits : W.weight 1 2 < 2^63) :
    coinSelect W 18446744073709551615 1 ⟨[("a",⟨"a",0,1,6⟩)],by decide⟩ (.fixed [⟨"a",0,1,6⟩] (.refl _)) 1 =
      some (.ok ⟨[⟨"a",0,1,6⟩],W.weight 1 2,-(W.weight 1 2 : Int)⟩) := by
  have sel : selectInputs 1 [⟨"a",0,1,6⟩] = .ok (1,[⟨"a",0,1,6⟩]) := rfl
  have zero : int64 (1 - 1) = 0 := by decide
  have change : int64 (0 - -(W.weight 1 2 : Int)) = W.weight 1 2 := by
    rw [int64_of_range (by omega) (by omega)]; omega
  have round : coinSelectRound W 18446744073709551615 1 1 [⟨"a",0,1,6⟩] =
      .done (.ok ⟨[⟨"a",0,1,6⟩],W.weight 1 2,-(W.weight 1 2 : Int)⟩) := by
    rw [coinSelectRound,sel]
    simp only [estimateFor_weight,List.length_singleton,feeOf_max_rate pos fits,zero,change]
    rw [if_neg (by omega)]
  exact loop_done round

theorem coinSelect_fee_wraps_linear :
    0 < (P2PKHWeight.linear 1 1).weight 1 2 ∧ (P2PKHWeight.linear 1 1).weight 1 2 < 2^63 ∧
    coinSelect (.linear 1 1) 18446744073709551615 1 ⟨[("a",⟨"a",0,1,6⟩)],by decide⟩
      (.fixed [⟨"a",0,1,6⟩] (.refl _)) 1 = some (.ok ⟨[⟨"a",0,1,6⟩],3,-3⟩) :=
  ⟨by decide,by decide,coinSelect_fee_wraps (.linear 1 1) (by decide) (by decide)⟩

theorem coinSelect_passes_bounded (W : P2PKHWeight) (feeRatePerWeight : UInt64) (amt : Int)
    (unspent : GoMap String ListUnspentResult) (order : MapOrder unspent)
    (bounded : NoOverflow W feeRatePerWeight amt unspent) :
    ∃ r, coinSelect W feeRatePerWeight amt unspent order (unspent.len + 1) = some r := by
  have returns : ∃ r, coinSelect.loop W feeRatePerWeight amt order.range (unspent.len+1) 0 (amt + 0) = some r :=
    loop_returns bounded order progress_start (by omega)
  simpa [coinSelect] using returns

theorem coinSelect_passes_spec_scenario :
    NoOverflow (.linear 1 1) 1 4 scenarioCache ∧
    ∃ r, coinSelect (.linear 1 1) 1 4 scenarioCache scenarioOrder (scenarioCache.len + 1) = some r :=
  have bounded : NoOverflow (.linear 1 1) 1 4 scenarioCache := ⟨by decide,by decide,by decide⟩
  ⟨bounded,coinSelect_passes_bounded _ _ _ _ _ bounded⟩

theorem coinSelect_failure_reports_map (W : P2PKHWeight) (feeRatePerWeight : UInt64) (amt : Int)
    (unspent : GoMap String ListUnspentResult) (order : MapOrder unspent) (fuel : Nat)
    (bounded : NoOverflow W feeRatePerWeight amt unspent) :
    (∀ e, coinSelect W feeRatePerWeight amt unspent order fuel = some (.error e) →
      e.amountAvailable = satoshi unspent.values ∧ e.amountAvailable < e.amountNeeded ∧
      e.amountNeeded ≤ amt + W.weight unspent.len 2 * feeRatePerWeight.toNat) ∧
    (amt + W.weight unspent.len 2 * feeRatePerWeight.toNat ≤ satoshi unspent.values →
      ∀ e, coinSelect W feeRatePerWeight amt unspent order fuel ≠ some (.error e)) := by
  have reports : ∀ e, coinSelect W feeRatePerWeight amt unspent order fuel = some (.error e) →
      e.amountAvailable = satoshi unspent.values ∧ e.amountAvailable < e.amountNeeded ∧
      e.amountNeeded ≤ amt + W.weight unspent.len 2 * feeRatePerWeight.toNat := fun e failed => by
    obtain ⟨available,short,needed⟩ := coinSelect_settles bounded order failed
    refine ⟨available,by omega,?_⟩
    simpa [feeFor] using needed
  exact ⟨reports,fun covered e failed => by have := reports e failed; omega⟩

theorem coinSelect_failure_spec_scenario :
    NoOverflow (.linear 1 1) 1 9 scenarioCache ∧
    coinSelect (.linear 1 1) 1 9 scenarioCache scenarioOrder 1 = some (.error ⟨9,8⟩) ∧
    (8 : Int) = satoshi scenarioCache.values ∧ (8 : Int) < 9 ∧
    (9 : Int) ≤ 9 + (P2PKHWeight.linear 1 1).weight scenarioCache.len 2 * (1 : UInt64).toNat :=
  have bounded : NoOverflow (.linear 1 1) 1 9 scenarioCache := ⟨by decide,by decide,by decide⟩
  have failed : coinSelect (.linear 1 1) 1 9 scenarioCache scenarioOrder 1 = some (.error ⟨9,8⟩) := by rfl
  ⟨bounded,failed,(coinSelect_failure_reports_map _ _ _ _ _ _ bounded).1 _ failed⟩

end Payserver.Bitcoind
