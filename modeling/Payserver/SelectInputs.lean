import Payserver.Basic
import Mathlib.Data.Nat.Find

namespace Payserver.Bitcoind

-- The body of selectInputs' range loop: `range` is inputsMap in the order this
-- range visits it, `inputs` and `satSelected` the loop's accumulators.
def selectInputs.loop (amt : Int) (inputs : List ListUnspentResult) (satSelected : Int) :
    List ListUnspentResult → Except ErrInsufficientFunds (Int × List ListUnspentResult)
  | [] => .error ⟨amt,satSelected⟩
  | input :: rest =>
    let satSelected := int64 (satSelected + input.amount)
    if satSelected ≥ amt then .ok (satSelected,inputs ++ [input])
    else selectInputs.loop amt (inputs ++ [input]) satSelected rest

def selectInputs (amt : Int) (range : List ListUnspentResult) :
    Except ErrInsufficientFunds (Int × List ListUnspentResult) :=
  selectInputs.loop amt [] 0 range

-- No prefix sum of the enumeration leaves int64.
def PrefixesFit (range : List ListUnspentResult) : Prop :=
  ∀ k ≤ range.length, -2^63 ≤ satoshi (range.take k) ∧ satoshi (range.take k) < 2^63

theorem prefixesFit_cons {inputs rest : List ListUnspentResult} {input : ListUnspentResult}
    (fits : PrefixesFit (inputs ++ input :: rest)) : PrefixesFit ((inputs ++ [input]) ++ rest) := by
  simpa using fits

theorem int64_step {inputs rest : List ListUnspentResult} {input : ListUnspentResult}
    (fits : PrefixesFit (inputs ++ input :: rest)) :
    int64 (satoshi inputs + input.amount) = satoshi (inputs ++ [input]) := by
  have bound := fits (inputs.length+1) (by simp)
  simp only [List.take_append_eq_append_take, List.take_of_length_le (Nat.le_succ _),
    Nat.add_sub_cancel_left, List.take_succ_cons, List.take_zero, satoshi_append,
    satoshi_cons, satoshi_nil, add_zero] at bound
  rw [int64_of_range bound.1 bound.2]; simp

theorem loop_covers (amt : Int) (rest inputs : List ListUnspentResult) (k : Nat)
    (fits : PrefixesFit (inputs ++ rest)) (pos : 1 ≤ k) (within : k ≤ rest.length)
    (covers : amt ≤ satoshi (inputs ++ rest.take k))
    (short : ∀ j, 1 ≤ j → j < k → satoshi (inputs ++ rest.take j) < amt) :
    selectInputs.loop amt inputs (satoshi inputs) rest =
      .ok (satoshi (inputs ++ rest.take k),inputs ++ rest.take k) := by
  induction rest generalizing inputs k with
  | nil => simp at within; omega
  | cons input rest ih =>
    simp only [selectInputs.loop,int64_step fits]
    rcases k with _ | _ | k
    · omega
    · simp only [zero_add,List.take_succ_cons,List.take_zero] at covers ⊢
      rw [if_pos covers]
    · have below := short 1 le_rfl (by omega)
      simp only [List.take_succ_cons, List.take_zero] at below
      rw [if_neg (by omega)]
      have next := ih (inputs ++ [input]) (k+1) (prefixesFit_cons fits) (by omega)
        (by simpa using within) (by simpa using covers)
        (fun j lo hi => by simpa using short (j+1) (by omega) (by omega))
      simpa using next

theorem loop_short (amt : Int) (rest inputs : List ListUnspentResult)
    (fits : PrefixesFit (inputs ++ rest))
    (short : ∀ j, 1 ≤ j → j ≤ rest.length → satoshi (inputs ++ rest.take j) < amt) :
    selectInputs.loop amt inputs (satoshi inputs) rest = .error ⟨amt,satoshi (inputs ++ rest)⟩ := by
  induction rest generalizing inputs with
  | nil => simp [selectInputs.loop]
  | cons input rest ih =>
    have below := short 1 le_rfl (by simp)
    simp only [List.take_succ_cons, List.take_zero] at below
    simp only [selectInputs.loop,int64_step fits,if_neg (not_le.mpr below)]
    have next := ih (inputs ++ [input]) (prefixesFit_cons fits)
      (fun j lo hi => by simpa using short (j+1) (by omega) (by simpa using hi))
    simpa using next

theorem loop_first_inputs (amt : Int) (rest inputs : List ListUnspentResult) {satSelected total : Int}
    {selected : List ListUnspentResult} (returned : selectInputs.loop amt inputs satSelected rest = .ok (total,selected)) :
    selected <+: inputs ++ rest := by
  induction rest generalizing inputs satSelected with
  | nil => cases returned
  | cons input rest ih =>
    simp only [selectInputs.loop] at returned
    split at returned
    · cases returned
      exact ⟨rest,by simp⟩
    · simpa using ih (inputs ++ [input]) returned

theorem selectInputs_cases (amt : Int) (range : List ListUnspentResult) (fits : PrefixesFit range) :
    ((∀ k, 1 ≤ k → k ≤ range.length → satoshi (range.take k) < amt) ∧
        selectInputs amt range = .error ⟨amt,satoshi range⟩) ∨
    ∃ k, 1 ≤ k ∧ k ≤ range.length ∧ amt ≤ satoshi (range.take k) ∧
      (∀ j, 1 ≤ j → j < k → satoshi (range.take j) < amt) ∧
      selectInputs amt range = .ok (satoshi (range.take k),range.take k) := by
  classical
  by_cases found : ∃ k, 1 ≤ k ∧ k ≤ range.length ∧ amt ≤ satoshi (range.take k)
  · obtain ⟨pos,within,covers⟩ := Nat.find_spec found
    have short : ∀ j, 1 ≤ j → j < Nat.find found → satoshi (range.take j) < amt := fun j lo hi => by
      have earlier := Nat.find_min found hi
      push_neg at earlier
      exact earlier lo (by omega)
    refine .inr ⟨_,pos,within,covers,short,?_⟩
    simpa using loop_covers amt range [] _ (by simpa using fits) pos within (by simpa using covers)
      (fun j lo hi => by simpa using short j lo hi)
  · push_neg at found
    refine .inl ⟨found,?_⟩
    simpa using loop_short amt range [] (by simpa using fits) (fun j lo hi => by simpa using found j lo hi)

theorem selectInputs_least (amt : Int) (range : List ListUnspentResult) (fits : PrefixesFit range) :
    (∀ k, 1 ≤ k → k ≤ range.length → amt ≤ satoshi (range.take k) →
        (∀ j, 1 ≤ j → j < k → satoshi (range.take j) < amt) →
        selectInputs amt range = .ok (satoshi (range.take k),range.take k)) ∧
    ((∀ k, 1 ≤ k → k ≤ range.length → satoshi (range.take k) < amt) →
        selectInputs amt range = .error ⟨amt,satoshi range⟩) :=
  ⟨fun k pos within covers short => by
      simpa using loop_covers amt range [] k (by simpa using fits) pos within (by simpa using covers)
        (fun j lo hi => by simpa using short j lo hi),
    fun short => by
      simpa using loop_short amt range [] (by simpa using fits) (fun j lo hi => by simpa using short j lo hi)⟩

-- The spec's selection scenario: a cache of two outputs, of 5 and 3 satoshi.
def scenarioCache : GoMap String ListUnspentResult :=
  ⟨[("txA",⟨"txA",0,5,6⟩),("txB",⟨"txB",0,3,6⟩)],by decide⟩

theorem selectInputs_spec_scenario :
    PrefixesFit scenarioCache.values ∧
    ((∀ k, 1 ≤ k → k ≤ scenarioCache.values.length → 6 ≤ satoshi (scenarioCache.values.take k) →
        (∀ j, 1 ≤ j → j < k → satoshi (scenarioCache.values.take j) < 6) →
        selectInputs 6 scenarioCache.values = .ok (satoshi (scenarioCache.values.take k),scenarioCache.values.take k)) ∧
    ((∀ k, 1 ≤ k → k ≤ scenarioCache.values.length → satoshi (scenarioCache.values.take k) < 6) →
        selectInputs 6 scenarioCache.values = .error ⟨6,satoshi scenarioCache.values⟩)) :=
  have fits : PrefixesFit scenarioCache.values := by unfold PrefixesFit; decide
  ⟨fits,selectInputs_least 6 _ fits⟩

end Payserver.Bitcoind
