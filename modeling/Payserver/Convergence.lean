import Payserver.CoinSelect

namespace Payserver.Bitcoind

-- The prefix of the first k outputs covers amt and the fee of its own k inputs.
def CoversFee (W : P2PKHWeight) (f : UInt64) (amt : Int) (xs : List ListUnspentResult) (k : Nat) : Prop :=
  1 ≤ k ∧ k ≤ xs.length ∧ amt + feeFor W f k ≤ satoshi (xs.take k)

section
variable {W : P2PKHWeight} {f : UInt64} {amt : Int} {unspent : GoMap String ListUnspentResult}
  {xs : List ListUnspentResult} {perm : xs.Perm unspent.values}

theorem fixed_loop_least (bounded : NoOverflow W f amt unspent) {least : Nat}
    (covers : CoversFee W f amt xs least) (first : ∀ j < least, ¬ CoversFee W f amt xs j)
    {fuel round : Nat} {c : Int} {floor : Nat} (progress : Progress W f unspent c floor)
    (below : c ≤ feeFor W f least) {r : Except ErrInsufficientFunds Selection}
    (returned : coinSelect.loop W f amt (MapOrder.fixed xs perm).range fuel round (amt + c) = some r) :
    r = .ok ⟨xs.take least,satoshi (xs.take least) - amt - feeFor W f least,feeFor W f least⟩ := by
  have length : xs.length = unspent.len := by simp [perm.length_eq]
  obtain ⟨pos,within,paid⟩ := covers
  induction fuel generalizing round c floor with
  | zero => cases returned
  | succ fuel ih =>
    rcases round_cases bounded perm progress.lo progress.hi with
      ⟨short,ended⟩ | ⟨k,kpos,kwithin,kcovers,kshort,⟨under,ended⟩ | ⟨kpaid,ended⟩⟩
    · have := satoshi_take_le (fun u mem => bounded.nonneg u (perm.mem_iff.mp mem)) least
      rw [satoshi_perm perm] at this; omega
    · have atMost : k ≤ least := Nat.le_of_not_lt fun after => by have := kshort least pos after; omega
      have before : k < least := Nat.lt_of_le_of_ne atMost fun same => by subst same; omega
      rw [loop_retry ended] at returned
      exact ih ⟨feeFor_nonneg W f k,feeFor_mono W f (by omega),by omega,fun j _ le => feeFor_mono W f le⟩
        (feeFor_mono W f before.le) returned
    · have atMost : k ≤ least := Nat.le_of_not_lt fun after => by have := kshort least pos after; omega
      have same : k = least := by
        by_contra differs
        exact first k (by omega) ⟨kpos,by omega,kpaid⟩
      subst same
      rw [loop_done ended] at returned
      exact (Option.some.inj returned).symm

theorem fixed_loop_uncovered (bounded : NoOverflow W f amt unspent)
    (uncovered : ¬ ∃ k, CoversFee W f amt xs k)
    {fuel round : Nat} {c : Int} {floor : Nat} (progress : Progress W f unspent c floor)
    {r : Except ErrInsufficientFunds Selection}
    (returned : coinSelect.loop W f amt (MapOrder.fixed xs perm).range fuel round (amt + c) = some r) :
    ∃ e, r = .error e := by
  have length : xs.length = unspent.len := by simp [perm.length_eq]
  induction fuel generalizing round c floor with
  | zero => cases returned
  | succ fuel ih =>
    rcases round_cases bounded perm progress.lo progress.hi with
      ⟨_,ended⟩ | ⟨k,kpos,kwithin,_,_,⟨under,ended⟩ | ⟨kpaid,ended⟩⟩
    · rw [loop_done ended] at returned
      exact ⟨_,(Option.some.inj returned).symm⟩
    · rw [loop_retry ended] at returned
      exact ih ⟨feeFor_nonneg W f k,feeFor_mono W f kwithin,kwithin,fun j _ le => feeFor_mono W f le⟩ returned
    · exact absurd ⟨k,kpos,by omega,kpaid⟩ uncovered

end

theorem coinSelect_fixed_order_least (W : P2PKHWeight) (feeRatePerWeight : UInt64) (amt : Int)
    (unspent : GoMap String ListUnspentResult) (xs : List ListUnspentResult) (perm : xs.Perm unspent.values)
    (bounded : NoOverflow W feeRatePerWeight amt unspent) :
    ((∃ fuel s, coinSelect W feeRatePerWeight amt unspent (.fixed xs perm) fuel = some (.ok s)) ↔
        ∃ k, CoversFee W feeRatePerWeight amt xs k) ∧
    (∀ k, CoversFee W feeRatePerWeight amt xs k → (∀ j < k, ¬ CoversFee W feeRatePerWeight amt xs j) →
      ∀ fuel r, coinSelect W feeRatePerWeight amt unspent (.fixed xs perm) fuel = some r →
        r = .ok ⟨xs.take k,satoshi (xs.take k) - amt - feeFor W feeRatePerWeight k,feeFor W feeRatePerWeight k⟩) ∧
    ((¬ ∃ k, CoversFee W feeRatePerWeight amt xs k) →
      ∃ fuel e, coinSelect W feeRatePerWeight amt unspent (.fixed xs perm) fuel = some (.error e)) := by
  have start : ∀ {fuel r}, coinSelect W feeRatePerWeight amt unspent (.fixed xs perm) fuel = some r →
      coinSelect.loop W feeRatePerWeight amt (MapOrder.fixed xs perm).range fuel 0 (amt + 0) = some r := by
    intro fuel r returned; simpa [coinSelect] using returned
  obtain ⟨r,returns⟩ : ∃ r, coinSelect.loop W feeRatePerWeight amt (MapOrder.fixed xs perm).range
      (unspent.len + 1) 0 (amt + 0) = some r := loop_returns bounded _ progress_start (by omega)
  have unique : ∀ k, CoversFee W feeRatePerWeight amt xs k → (∀ j < k, ¬ CoversFee W feeRatePerWeight amt xs j) →
      ∀ fuel r, coinSelect W feeRatePerWeight amt unspent (.fixed xs perm) fuel = some r →
        r = .ok ⟨xs.take k,satoshi (xs.take k) - amt - feeFor W feeRatePerWeight k,feeFor W feeRatePerWeight k⟩ :=
    fun k covers first _ _ returned =>
      fixed_loop_least bounded covers first progress_start (feeFor_nonneg _ _ _) (start returned)
  refine ⟨⟨fun ⟨_,s,returned⟩ => ?_,fun found => ?_⟩,unique,fun uncovered => ?_⟩
  · by_contra uncovered
    obtain ⟨e,err⟩ := fixed_loop_uncovered bounded uncovered progress_start (start returned)
    cases err
  · classical
    have least := unique _ (Nat.find_spec found) (fun j lt => Nat.find_min found lt) _ r
      (by simpa [coinSelect] using returns)
    exact ⟨_,_,by simpa [coinSelect,least] using returns⟩
  · obtain ⟨e,rfl⟩ := fixed_loop_uncovered bounded uncovered progress_start returns
    exact ⟨_,e,by simpa [coinSelect] using returns⟩

-- At fee rate 1 under the weight k + 2, one output of 5 does not pay 4 and
-- its fee of 3; both outputs, 8, pay 4 and their fee of 4.
theorem coinSelect_fixed_order_scenario :
    scenarioCache.values.Perm scenarioCache.values ∧ NoOverflow (.linear 1 1) 1 4 scenarioCache ∧
    (((∃ fuel s, coinSelect (.linear 1 1) 1 4 scenarioCache scenarioOrder fuel = some (.ok s)) ↔
        ∃ k, CoversFee (.linear 1 1) 1 4 scenarioCache.values k) ∧
    (∀ k, CoversFee (.linear 1 1) 1 4 scenarioCache.values k → (∀ j < k, ¬ CoversFee (.linear 1 1) 1 4 scenarioCache.values j) →
      ∀ fuel r, coinSelect (.linear 1 1) 1 4 scenarioCache scenarioOrder fuel = some r →
        r = .ok ⟨scenarioCache.values.take k,satoshi (scenarioCache.values.take k) - 4 - feeFor (.linear 1 1) 1 k,
          feeFor (.linear 1 1) 1 k⟩) ∧
    ((¬ ∃ k, CoversFee (.linear 1 1) 1 4 scenarioCache.values k) →
      ∃ fuel e, coinSelect (.linear 1 1) 1 4 scenarioCache scenarioOrder fuel = some (.error e))) :=
  have bounded : NoOverflow (.linear 1 1) 1 4 scenarioCache := ⟨by decide,by decide,by decide⟩
  ⟨.refl _,bounded,coinSelect_fixed_order_least _ _ _ _ _ (.refl _) bounded⟩

end Payserver.Bitcoind
