import ArbitroRaft.Library.KeyedSum

/-!
# Buckets

A table of lists that is filled one item at a time, each under its key.  A bucket holds
the items of its key in the order they came in, and all buckets together hold every item.
-/

namespace ArbitroRaft.Library

variable {K V : Type*} [DecidableEq K]

/-- Add an item to the bucket of `k`, which is made if there is none. -/
def pushBucket (m : AList fun _ : K => List V) (k : K) (v : V) : AList fun _ : K => List V :=
  m.insert k ((m.lookup k).getD [] ++ [v])

/-- Add items under their keys. -/
def pushBuckets (m : AList fun _ : K => List V) (items : List (K × V)) :
    AList fun _ : K => List V :=
  items.foldl (fun m item => pushBucket m item.1 item.2) m

/-- What is under a key. -/
def bucket (m : AList fun _ : K => List V) (k : K) : List V := (m.lookup k).getD []

variable (m : AList fun _ : K => List V)

theorem bucket_pushBucket (j k : K) (v : V) :
    bucket (pushBucket m k v) j = if k = j then bucket m j ++ [v] else bucket m j := by
  unfold bucket pushBucket
  by_cases h : k = j
  · subst h
    rw [AList.lookup_insert, if_pos rfl]
    rfl
  · rw [AList.lookup_insert_ne fun heq => h heq.symm, if_neg h]

/-- A bucket holds the items of its key, in order. -/
theorem bucket_pushBuckets (items : List (K × V)) (k : K) :
    bucket (pushBuckets m items) k =
      bucket m k ++ (items.filter fun item => item.1 = k).map Prod.snd := by
  induction items generalizing m with
  | nil => exact (List.append_nil _).symm
  | cons item rest ih =>
    show bucket (pushBuckets (pushBucket m item.1 item.2) rest) k = _
    rw [ih, bucket_pushBucket]
    by_cases h : item.1 = k
    · rw [if_pos h, List.filter_cons_of_pos (by simpa using h), List.map_cons,
        List.append_assoc]
      rfl
    · rw [if_neg h, List.filter_cons_of_neg (by simpa using h)]

theorem weigh_pushBucket (k : K) (v : V) :
    weigh List.length (pushBucket m k v) = weigh List.length m + 1 := by
  unfold pushBucket
  rw [weigh_insert, List.length_append]
  cases h : m.lookup k with
  | none =>
    rw [weigh_erase_of_none h]
    show 0 + 1 + _ = _
    omega
  | some l =>
    rw [weigh_eq_add_erase h]
    show l.length + 1 + _ = _
    omega

/-- The buckets together hold every item. -/
theorem weigh_pushBuckets (items : List (K × V)) :
    weigh List.length (pushBuckets m items) = weigh List.length m + items.length := by
  induction items generalizing m with
  | nil => rfl
  | cons item rest ih =>
    show weigh List.length (pushBuckets (pushBucket m item.1 item.2) rest) = _
    rw [ih, weigh_pushBucket, List.length_cons]
    omega

/-! ## Visiting the buckets -/

/-- However a table is gone through, a key is met once. -/
theorem flatMap_key {W : Type*} {t : AList fun _ : K => V} {l : List (Sigma fun _ : K => V)}
    (hperm : l.Perm t.entries) (f : V → List W) (k : K) :
    (l.flatMap fun e => if e.1 = k then f e.2 else []) = (t.lookup k).elim [] f := by
  have hkeys : l.NodupKeys := (List.perm_nodupKeys hperm).mpr t.nodupKeys
  have hlookup : t.lookup k = l.dlookup k := (List.perm_dlookup k hkeys hperm).symm
  rw [hlookup]
  clear hperm hlookup
  induction l with
  | nil => rfl
  | cons e rest ih =>
    obtain ⟨j, v⟩ := e
    obtain ⟨hnotin, hrest⟩ := List.nodupKeys_cons.mp hkeys
    rw [List.flatMap_cons, ih hrest]
    by_cases h : j = k
    · subst h
      rw [if_pos rfl, List.dlookup_cons_eq, List.dlookup_eq_none.mpr hnotin]
      exact List.append_nil _
    · rw [if_neg h, List.dlookup_cons_ne _ _ fun heq => h heq.symm]
      rfl

omit [DecidableEq K] in
theorem sum_map_entries {t : AList fun _ : K => V} {l : List (Sigma fun _ : K => V)}
    (hperm : l.Perm t.entries) (f : V → Nat) : (l.map fun e => f e.2).sum = weigh f t :=
  (hperm.map _).sum_eq

end ArbitroRaft.Library
