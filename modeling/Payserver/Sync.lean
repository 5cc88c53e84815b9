import Payserver.SelectInputs

namespace Payserver.Bitcoind

-- The node behind c.client: the wallet's unspent outputs, and the outpoints
-- lockunspent holds.
structure Node where
  utxos : List ListUnspentResult
  locked : List OutPoint
  deriving DecidableEq, Repr

-- ListUnspentMinMax: the unspent outputs within the confirmation bounds that
-- are not locked.
def Node.listUnspentMinMax (node : Node) (minConf maxConf : Nat) : List ListUnspentResult :=
  node.utxos.filter fun u => !node.locked.contains u.outPoint && minConf ≤ u.confirmations && u.confirmations ≤ maxConf

def maxInt32 : Nat := 2147483647

-- The loop of syncUnspent over the listing: c.unspent[u.TxID] = u into a
-- fresh map.
def unspentOf (unspent : List ListUnspentResult) : GoMap String ListUnspentResult :=
  unspent.foldl (fun cache u => cache.insert u.txID u) .empty

def WellKeyed (cache : GoMap String ListUnspentResult) : Prop := ∀ e ∈ cache.entries, e.2.txID = e.1

theorem wellKeyed_insert {cache : GoMap String ListUnspentResult} (keyed : WellKeyed cache)
    (u : ListUnspentResult) : WellKeyed (cache.insert u.txID u) := by
  intro e mem
  rcases List.mem_append.mp mem with old | new
  · exact keyed e (List.mem_of_mem_filter old)
  · simp at new; subst new; rfl

theorem wellKeyed_unspentOf (unspent : List ListUnspentResult) : WellKeyed (unspentOf unspent) := by
  suffices ∀ cache, WellKeyed cache → WellKeyed (unspent.foldl (fun cache u => cache.insert u.txID u) cache) from
    this _ fun _ mem => nomatch mem
  induction unspent with
  | nil => exact fun _ keyed => keyed
  | cons u rest ih => exact fun cache keyed => ih _ (wellKeyed_insert keyed u)

theorem lookup_fill (unspent : List ListUnspentResult) (cache : GoMap String ListUnspentResult) (k : String) :
    (unspent.foldl (fun cache u => cache.insert u.txID u) cache).lookup k =
      (unspent.reverse.find? (·.txID == k)).or (cache.lookup k) := by
  induction unspent generalizing cache with
  | nil => simp
  | cons u rest ih =>
    rw [List.foldl_cons,ih,GoMap.lookup_insert,List.reverse_cons,List.find?_append]
    by_cases same : u.txID = k <;> cases rest.reverse.find? (·.txID == k) <;> simp [same]

theorem values_fill_distinct (unspent : List ListUnspentResult) (cache : GoMap String ListUnspentResult)
    (distinct : (unspent.map (·.txID)).Nodup) (fresh : ∀ u ∈ unspent, u.txID ∉ cache.entries.map Prod.fst) :
    (unspent.foldl (fun cache u => cache.insert u.txID u) cache).values = cache.values ++ unspent := by
  induction unspent generalizing cache with
  | nil => simp
  | cons u rest ih =>
    simp only [List.map_cons,List.nodup_cons,List.mem_map] at distinct
    rw [List.foldl_cons,ih _ distinct.2,GoMap.values_insert_fresh _ _ (fresh u (List.mem_cons_self _ _))]
    · simp
    · intro v mem key
      rcases GoMap.mem_keys_insert key with old | same
      · exact fresh v (List.mem_cons_of_mem _ mem) old
      · exact distinct.1 ⟨v,mem,same⟩

theorem mem_values_fill {unspent : List ListUnspentResult} {cache : GoMap String ListUnspentResult}
    {u : ListUnspentResult} (mem : u ∈ (unspent.foldl (fun cache u => cache.insert u.txID u) cache).values) :
    u ∈ cache.values ∨ u ∈ unspent := by
  induction unspent generalizing cache with
  | nil => exact .inl mem
  | cons v rest ih =>
    rcases ih mem with old | listed
    · simp only [GoMap.values,GoMap.insert,List.map_append,List.mem_append,List.mem_map,List.mem_filter,
        List.map_cons,List.map_nil,List.mem_singleton] at old
      rcases old with ⟨e,⟨kept,_⟩,rfl⟩ | rfl
      · exact .inl (List.mem_map_of_mem _ kept)
      · exact .inr (List.mem_cons_self _ _)
    · exact .inr (List.mem_cons_of_mem _ listed)

theorem values_fill_sublist (unspent : List ListUnspentResult) (cache : GoMap String ListUnspentResult) :
    (unspent.foldl (fun cache u => cache.insert u.txID u) cache).values.Sublist (cache.values ++ unspent) := by
  induction unspent generalizing cache with
  | nil => simp
  | cons u rest ih => simpa using (ih _).trans ((GoMap.values_insert_sublist cache u.txID u).append_right rest)

theorem values_unspentOf_sublist (unspent : List ListUnspentResult) : (unspentOf unspent).values.Sublist unspent := by
  simpa using values_fill_sublist unspent .empty

theorem mem_values_unspentOf {unspent : List ListUnspentResult} {u : ListUnspentResult}
    (mem : u ∈ (unspentOf unspent).values) : u ∈ unspent :=
  (mem_values_fill mem).resolve_left fun empty => nomatch empty

theorem unspentOf_lookup (unspent : List ListUnspentResult) (k : String) :
    (unspentOf unspent).lookup k = unspent.reverse.find? (·.txID == k) := by
  simp [unspentOf,lookup_fill]

theorem unspentOf_values_distinct (unspent : List ListUnspentResult) (distinct : (unspent.map (·.txID)).Nodup) :
    (unspentOf unspent).values = unspent := by
  simpa using values_fill_distinct unspent .empty distinct fun _ _ key => nomatch key

theorem unspentOf_values_scenario :
    (([⟨"txA",0,5,6⟩,⟨"txB",0,3,6⟩] : List ListUnspentResult).map (·.txID)).Nodup ∧
    (unspentOf [⟨"txA",0,5,6⟩,⟨"txB",0,3,6⟩]).values = [⟨"txA",0,5,6⟩,⟨"txB",0,3,6⟩] :=
  have distinct : (([⟨"txA",0,5,6⟩,⟨"txB",0,3,6⟩] : List ListUnspentResult).map (·.txID)).Nodup := by decide
  ⟨distinct,unspentOf_values_distinct _ distinct⟩

-- Two outputs of one transaction share a key: the second listed replaces the
-- first, and selection over the cache sees 3 of the 8 satoshi listed.
theorem syncUnspent_drops_sibling_output :
    (([⟨"a",0,5,6⟩,⟨"a",1,3,6⟩] : List ListUnspentResult).map (·.outPoint)).Nodup ∧
    (unspentOf [⟨"a",0,5,6⟩,⟨"a",1,3,6⟩]).values = [⟨"a",1,3,6⟩] ∧
    selectInputs 8 (unspentOf [⟨"a",0,5,6⟩,⟨"a",1,3,6⟩]).values = .error ⟨8,3⟩ ∧
    satoshi [⟨"a",0,5,6⟩,⟨"a",1,3,6⟩] = 8 :=
  ⟨by decide,by decide,rfl,by decide⟩

end Payserver.Bitcoind
