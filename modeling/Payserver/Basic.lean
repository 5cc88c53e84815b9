import Mathlib.Algebra.BigOperators.Group.List

namespace Payserver.Bitcoind

-- btcutil.Amount is an int64 of satoshi. Every sum and difference the source
-- forms is read back through the two's complement wrap of Go's int64.
def int64 (x : Int) : Int := (x + 2^63) % 2^64 - 2^63

theorem int64_of_range {x : Int} (lo : -2^63 ≤ x) (hi : x < 2^63) : int64 x = x := by
  unfold int64; omega

-- btcutil.Amount(uint64(weight) * feeRatePerWeight): the product wraps at 2^64
-- and its bits are read back as an int64.
def feeOf (weight : Nat) (feeRatePerWeight : UInt64) : Int :=
  int64 (UInt64.ofNat weight * feeRatePerWeight).toNat

theorem feeOf_exact {weight : Nat} {feeRatePerWeight : UInt64}
    (fits : weight * feeRatePerWeight.toNat < 2^63) :
    feeOf weight feeRatePerWeight = weight * feeRatePerWeight.toNat := by
  have wrapped : (UInt64.ofNat weight * feeRatePerWeight).toNat = weight * feeRatePerWeight.toNat := by
    change weight % 2^64 * feeRatePerWeight.toNat % 2^64 = _
    rw [Nat.mod_mul_mod, Nat.mod_eq_of_lt (by omega)]
  rw [feeOf,wrapped,int64_of_range (by omega) (by exact_mod_cast fits),Int.ofNat_mul]

-- The fields of btcjson.ListUnspentResult that the connector reads. The
-- amount is in satoshi, as btcutil.NewAmount converts the node's BTC value.
structure ListUnspentResult where
  txID : String
  vout : Nat
  amount : Int
  confirmations : Nat
  deriving DecidableEq, Repr

structure OutPoint where
  hash : String
  index : Nat
  deriving DecidableEq, Repr

def ListUnspentResult.outPoint (u : ListUnspentResult) : OutPoint := ⟨u.txID,u.vout⟩

def satoshi : List ListUnspentResult → Int
  | [] => 0
  | u :: rest => u.amount + satoshi rest

@[simp] theorem satoshi_nil : satoshi [] = 0 := rfl
@[simp] theorem satoshi_cons (u : ListUnspentResult) (rest : List ListUnspentResult) :
    satoshi (u :: rest) = u.amount + satoshi rest := rfl
@[simp] theorem satoshi_append (l r : List ListUnspentResult) :
    satoshi (l ++ r) = satoshi l + satoshi r := by
  induction l with
  | nil => simp
  | cons u rest ih => simp [ih]; omega

theorem satoshi_perm {l r : List ListUnspentResult} (perm : l.Perm r) : satoshi l = satoshi r := by
  induction perm with
  | nil => rfl
  | cons u _ ih => simp [ih]
  | swap u v rest => simp; omega
  | trans _ _ ih ih' => exact ih.trans ih'

theorem satoshi_nonneg {inputs : List ListUnspentResult} (nonneg : ∀ u ∈ inputs, 0 ≤ u.amount) :
    0 ≤ satoshi inputs := by
  induction inputs with
  | nil => simp
  | cons u rest ih => simp only [List.mem_cons, forall_eq_or_imp] at nonneg; have := ih nonneg.2; simp; omega

theorem satoshi_take_le {inputs : List ListUnspentResult} (nonneg : ∀ u ∈ inputs, 0 ≤ u.amount) (k : Nat) :
    satoshi (inputs.take k) ≤ satoshi inputs := by
  have split := satoshi_append (inputs.take k) (inputs.drop k)
  rw [List.take_append_drop] at split
  have := @satoshi_nonneg (inputs.drop k) (fun u mem => nonneg u (List.mem_of_mem_drop mem))
  omega

theorem satoshi_sublist_le {inputs outputs : List ListUnspentResult} (sub : inputs.Sublist outputs)
    (nonneg : ∀ u ∈ outputs, 0 ≤ u.amount) : satoshi inputs ≤ satoshi outputs := by
  induction sub with
  | slnil => exact le_rfl
  | cons u _ ih =>
    simp only [List.mem_cons,forall_eq_or_imp] at nonneg
    have := ih nonneg.2; simp; omega
  | cons₂ u _ ih =>
    simp only [List.mem_cons,forall_eq_or_imp] at nonneg
    have := ih nonneg.2; simp; omega

structure ErrInsufficientFunds where
  amountNeeded : Int
  amountAvailable : Int
  deriving DecidableEq, Repr

-- A Go map: its entries with distinct keys. The list order means nothing to
-- the program; a range over the map visits the entries in any order.
structure GoMap (κ ν : Type) [DecidableEq κ] where
  entries : List (κ × ν)
  nodup : (entries.map Prod.fst).Nodup

namespace GoMap
variable {κ ν : Type} [DecidableEq κ]

def empty : GoMap κ ν := ⟨[],List.nodup_nil⟩

def values (m : GoMap κ ν) : List ν := m.entries.map Prod.snd

def len (m : GoMap κ ν) : Nat := m.entries.length

def lookup (m : GoMap κ ν) (k : κ) : Option ν := (m.entries.find? (·.1 == k)).map Prod.snd

theorem nodup_filter (m : GoMap κ ν) (p : κ × ν → Bool) : ((m.entries.filter p).map Prod.fst).Nodup :=
  m.nodup.sublist ((List.filter_sublist _).map _)

def delete (m : GoMap κ ν) (k : κ) : GoMap κ ν := ⟨m.entries.filter (·.1 != k),m.nodup_filter _⟩

def insert (m : GoMap κ ν) (k : κ) (v : ν) : GoMap κ ν :=
  ⟨(m.entries.filter (·.1 != k)) ++ [(k,v)],by
    rw [List.map_append,List.nodup_append]
    refine ⟨m.nodup_filter _,List.nodup_singleton _,?_⟩
    simp [List.disjoint_singleton]⟩

@[simp] theorem values_len (m : GoMap κ ν) : m.values.length = m.len := by simp [values,len]

@[simp] theorem delete_entries (m : GoMap κ ν) (k : κ) :
    (m.delete k).entries = m.entries.filter (·.1 != k) := rfl

theorem values_insert_sublist (m : GoMap κ ν) (k : κ) (v : ν) : (m.insert k v).values.Sublist (m.values ++ [v]) := by
  simp only [insert,values,List.map_append,List.map_cons,List.map_nil]
  exact ((List.filter_sublist _).map _).append_right _

theorem ext_entries {m m' : GoMap κ ν} (same : m.entries = m'.entries) : m = m' := by
  cases m; cases m'; cases same; rfl

@[simp] theorem lookup_empty (k : κ) : (empty : GoMap κ ν).lookup k = none := rfl

theorem find?_filter_key (entries : List (κ × ν)) (k k' : κ) :
    (entries.filter (·.1 != k')).find? (·.1 == k) = if k' = k then none else entries.find? (·.1 == k) := by
  induction entries with
  | nil => simp
  | cons e rest ih =>
    by_cases same : k' = k
    · subst same; by_cases key : e.1 = k' <;> simp_all
    · by_cases key : e.1 = k <;> by_cases other : e.1 = k' <;> simp_all

theorem lookup_insert (m : GoMap κ ν) (k k' : κ) (v : ν) :
    (m.insert k' v).lookup k = if k' = k then some v else m.lookup k := by
  unfold lookup insert
  rw [List.find?_append,find?_filter_key]
  by_cases same : k' = k <;> simp [same]

theorem values_insert_fresh (m : GoMap κ ν) {k : κ} (v : ν) (fresh : k ∉ m.entries.map Prod.fst) :
    (m.insert k v).values = m.values ++ [v] := by
  have kept : m.entries.filter (·.1 != k) = m.entries :=
    List.filter_eq_self.mpr fun e mem => by
      have : e.1 ≠ k := fun same => fresh (List.mem_map.mpr ⟨e,mem,same⟩)
      simpa using this
  simp [insert,values,kept]

theorem mem_keys_insert {m : GoMap κ ν} {k k' : κ} {v : ν} (mem : k' ∈ (m.insert k v).entries.map Prod.fst) :
    k' ∈ m.entries.map Prod.fst ∨ k' = k := by
  simp only [insert,List.map_append,List.mem_append,List.map_cons,List.map_nil,List.mem_singleton] at mem
  exact mem.imp_left (((List.filter_sublist _).map _).subset ·)

instance [DecidableEq ν] : DecidableEq (GoMap κ ν) := fun m m' =>
  decidable_of_iff (m.entries = m'.entries) ⟨ext_entries,congrArg _⟩

end GoMap

-- TxWeightEstimator's weight for a transaction of P2PKH inputs and outputs.
-- The estimator's source is outside this repository, so the weight is a
-- parameter, never lowered by one more input: each input adds a fixed weight.
structure P2PKHWeight where
  weight : Nat → Nat → Nat
  mono : ∀ {k l : Nat} (outputs : Nat), k ≤ l → weight k outputs ≤ weight l outputs

def P2PKHWeight.linear (perInput perOutput : Nat) : P2PKHWeight :=
  ⟨fun inputs outputs => inputs * perInput + outputs * perOutput,
    fun _ le => Nat.add_le_add_right (Nat.mul_le_mul_right _ le) _⟩

structure TxWeightEstimator where
  inputCount : Nat
  outputCount : Nat
  deriving DecidableEq, Repr

namespace TxWeightEstimator

def addP2PKHInput (e : TxWeightEstimator) : TxWeightEstimator := {e with inputCount := e.inputCount+1}

def addP2PKHOutput (e : TxWeightEstimator) : TxWeightEstimator := {e with outputCount := e.outputCount+1}

def weight (W : P2PKHWeight) (e : TxWeightEstimator) : Nat := W.weight e.inputCount e.outputCount

end TxWeightEstimator

end Payserver.Bitcoind
