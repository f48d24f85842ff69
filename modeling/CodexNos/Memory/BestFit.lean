import CodexNos.Memory.PoolInvariant

/-!
# First fit and best fit

An allocation takes the first bin, in the order of the configuration, that is large enough and has a
free chunk.  It takes the best one in every state exactly if the configuration lists its bins in
ascending order.
-/

namespace CodexNos.Memory

open Lib.Transition

variable {θ : Type*}

/-! ## The first sufficient bin -/

namespace Pool

/-- A bin has a free chunk that is large enough. -/
def Sufficient (pool : Pool) (total bin : Nat) : Prop :=
  bin < pool.binCount ∧ total ≤ (pool.bins bin).chunkSize.toNat ∧ (pool.bins bin).freeStack ≠ []

/-- An allocation fails only if no bin is sufficient, and else finds a smallest one. -/
structure BestFit (pool : Pool) (size headroom : UInt32) : Prop where
  none_iff : (pool.alloc size headroom).2 = none ↔
    ∀ bin, ¬ pool.Sufficient (size.toNat + headroom.toNat) bin
  least : ∀ id, (pool.alloc size headroom).2 = some id →
    pool.Free id ∧ pool.Sufficient (size.toNat + headroom.toNat) id.bin ∧
      ∀ bin, pool.Sufficient (size.toNat + headroom.toNat) bin →
        (pool.bins id.bin).chunkSize ≤ (pool.bins bin).chunkSize

/-- Every request that does not wrap around gets the best fit. -/
def FitsBest (pool : Pool) : Prop :=
  ∀ size headroom : UInt32, size.toNat + headroom.toNat < 2 ^ 32 → pool.BestFit size headroom

variable {pool : Pool} {size headroom : UInt32}

theorem serves_iff (small : size.toNat + headroom.toNat < 2 ^ 32) {bin : Nat} :
    bin < pool.binCount ∧ pool.serves (size + headroom) bin = true ↔
      pool.Sufficient (size.toNat + headroom.toNat) bin := by
  have total : (size + headroom).toNat = size.toNat + headroom.toNat := by
    rw [UInt32.toNat_add]
    exact Nat.mod_eq_of_lt small
  have stacked : 0 ≤ (pool.bins bin).freeTop ↔ (pool.bins bin).freeStack ≠ [] := by
    rw [Bin.freeTop, ← List.length_pos_iff]
    omega
  simp only [serves, Sufficient, Bool.and_eq_true, decide_eq_true_eq, stacked,
    UInt32.le_iff_toNat_le, total]

/-- The search finds nothing, or the first sufficient bin and the top of its stack. -/
theorem alloc_cases_of_small (pool : Pool) {size headroom : UInt32}
    (small : size.toNat + headroom.toNat < 2 ^ 32) :
    ((pool.alloc size headroom).2 = none ∧
      ∀ bin, ¬ pool.Sufficient (size.toNat + headroom.toNat) bin) ∨
    ∃ bin index rest, pool.Sufficient (size.toNat + headroom.toNat) bin ∧
      (∀ earlier < bin, ¬ pool.Sufficient (size.toNat + headroom.toNat) earlier) ∧
      (pool.bins bin).freeStack = index :: rest ∧
      pool.alloc size headroom =
        (pool.setBin bin ((pool.bins bin).take size headroom), some ⟨bin, index⟩) := by
  cases found : (List.range pool.binCount).find? (pool.serves (size + headroom)) with
  | none =>
      left
      refine ⟨by rw [alloc, found], fun bin enough => ?_⟩
      obtain ⟨inside, serves⟩ := (serves_iff small).mpr enough
      exact List.find?_eq_none.mp found bin (List.mem_range.mpr inside) serves
  | some bin =>
      right
      obtain ⟨serves, inside, earlier⟩ := List.find?_range_eq_some.mp found
      have sufficient := (serves_iff small).mp ⟨List.mem_range.mp inside, serves⟩
      obtain ⟨index, rest, top⟩ := List.exists_cons_of_ne_nil sufficient.2.2
      refine ⟨bin, index, rest, sufficient, fun other before enough => ?_, top, ?_⟩
      · have refused := earlier other before
        simp [((serves_iff small).mpr enough).2] at refused
      · simp [alloc, found, top]

/-- Where the bins are sorted, the first sufficient one is a smallest one. -/
theorem fitsBest_of_sorted
    (sorted : ∀ first second, first < second → second < pool.binCount →
      (pool.bins first).freeStack ≠ [] → (pool.bins second).freeStack ≠ [] →
      (pool.bins first).chunkSize ≤ (pool.bins second).chunkSize) : pool.FitsBest := by
  intro size headroom small
  rcases pool.alloc_cases_of_small small with
    ⟨failed, none_sufficient⟩ | ⟨bin, index, rest, sufficient, first, top, taken⟩
  · refine ⟨⟨fun _ => none_sufficient, fun _ => failed⟩, fun id some_id => ?_⟩
    simp [failed] at some_id
  · have result : (pool.alloc size headroom).2 = some ⟨bin, index⟩ := by rw [taken]
    refine ⟨⟨fun failed => by simp [failed] at result, fun none => (none bin sufficient).elim⟩, ?_⟩
    intro id some_id
    obtain rfl : (⟨bin, index⟩ : BufferId) = id := Option.some.inj (result.symm.trans some_id)
    refine ⟨by simp [Free, top], sufficient, fun other enough => ?_⟩
    rcases Nat.lt_trichotomy other bin with before | rfl | after
    · exact (first other before enough).elim
    · exact UInt32.le_refl _
    · exact sorted bin other after enough.1 sufficient.2.2 enough.2.2

theorem setBin_chunkSize {index : Nat} {bin : Bin}
    (same : bin.chunkSize = (pool.bins index).chunkSize) (other : Nat) :
    ((pool.setBin index bin).bins other).chunkSize = (pool.bins other).chunkSize := by
  rcases eq_or_ne other index with rfl | different
  · rw [setBin_bins_self, same]
  · rw [setBin_bins_ne _ _ different]

theorem take_freeStack {bin index : Nat} {rest : List Nat}
    (top : (pool.bins bin).freeStack = index :: rest) (other : Nat) :
    ((pool.setBin bin ((pool.bins bin).take size headroom)).bins other).freeStack =
      if other = bin then rest else (pool.bins other).freeStack := by
  split
  · rename_i same
    rw [same, setBin_bins_self, Bin.take, top]
  · rename_i different
    rw [setBin_bins_ne _ _ different]

end Pool

theorem Bin.take_chunkSize (bin : Bin) (size headroom : UInt32) :
    (bin.take size headroom).chunkSize = bin.chunkSize := by
  cases top : bin.freeStack <;> simp [Bin.take, top]

/-! ## The bins of a configuration -/

/-- A bin of the configuration has chunks. -/
def Stocked (config : List PoolDef) (bin : Nat) : Prop :=
  ((poolOf config).bins bin).freeStack ≠ []

/-- The bins with chunks come in ascending order of their sizes. -/
def Ascending (config : List PoolDef) : Prop :=
  ((usableDefs config).filter fun entry => 0 < entry.chunkCount).Pairwise
    fun first second => alignedSize first.chunkSize ≤ alignedSize second.chunkSize

theorem ascending_iff {config : List PoolDef} :
    Ascending config ↔ ∀ first second, first < second → second < (poolOf config).binCount →
      Stocked config first → Stocked config second →
      ((poolOf config).bins first).chunkSize ≤ ((poolOf config).bins second).chunkSize := by
  have bin_eq {bin : Nat} (inside : bin < (usableDefs config).length) :
      (poolOf config).bins bin = initBin (usableDefs config)[bin] := by
    simp [poolOf, List.getElem?_eq_getElem inside]
  have stocked_iff {bin : Nat} (inside : bin < (usableDefs config).length) :
      Stocked config bin ↔ 0 < (usableDefs config)[bin].chunkCount := by
    rw [Stocked, bin_eq inside, initBin, UInt32.lt_iff_toNat_lt, ← List.length_pos_iff]
    simp
  rw [Ascending, List.pairwise_filter, List.pairwise_iff_getElem]
  constructor
  · intro sorted first second before inside stocked stocked'
    have inside' : first < (usableDefs config).length := before.trans inside
    rw [bin_eq inside', bin_eq inside]
    exact sorted first second inside' inside before
      (by simpa using (stocked_iff inside').mp stocked)
      (by simpa using (stocked_iff inside).mp stocked')
  · intro sorted first second inside' inside before some_chunk some_chunk'
    have le := sorted first second before inside
      ((stocked_iff inside').mpr (by simpa using some_chunk))
      ((stocked_iff inside).mpr (by simpa using some_chunk'))
    rwa [bin_eq inside', bin_eq inside] at le

namespace PoolSystem

/-- The bins keep their sizes, and only bins with chunks ever have a buffer. -/
structure FromConfig (config : List PoolDef) (sys : PoolSystem θ) : Prop where
  binCount : sys.pool.binCount = (poolOf config).binCount
  chunkSize : ∀ bin, (sys.pool.bins bin).chunkSize = ((poolOf config).bins bin).chunkSize
  stacked : ∀ bin, (sys.pool.bins bin).freeStack ≠ [] → Stocked config bin
  referenced : ∀ reference ∈ sys.references, Stocked config reference.2.bin
  returning : ∀ thread id, sys.releasing thread = some id → Stocked config id.bin

variable {config : List PoolDef}

theorem FromConfig.of_initial {sys : PoolSystem θ} (initial : sys.Initial config) :
    sys.FromConfig config := by
  have pool_eq := initial.pool
  simp only [initPool, Option.ite_none_right_eq_some, Option.some.injEq] at pool_eq
  refine ⟨by rw [← pool_eq.2], by simp [← pool_eq.2], fun bin stacked => ?_, ?_, ?_⟩
  · rwa [← pool_eq.2] at stacked
  · simp [initial.references]
  · simp [initial.releasing]

variable [DecidableEq θ]

theorem FromConfig.step {before after : PoolSystem θ} {op : PoolOp θ}
    (from_config : before.FromConfig config) (stepped : before.step op = some after) :
    after.FromConfig config := by
  obtain ⟨binCount, chunkSize, stacked, referenced, returning⟩ := from_config
  have count_kept (id : BufferId) (count : BitVec 32) (bin : Nat) :
      ((before.pool.setRefCnt id count).bins bin).chunkSize = (before.pool.bins bin).chunkSize :=
    Pool.setBin_chunkSize (by rfl) bin
  cases op with
  | alloc thread size headroom =>
      simp only [PoolSystem.step, Option.ite_none_right_eq_some, Option.some.injEq] at stepped
      obtain ⟨-, rfl⟩ := stepped
      rcases Pool.alloc_cases before.pool size headroom with
        failed | ⟨bin, index, rest, -, top, taken⟩
      · rw [failed]
        exact ⟨binCount, chunkSize, stacked, referenced, returning⟩
      · rw [taken]
        have from_stock : Stocked config bin := stacked bin (by simp [top])
        refine ⟨binCount, fun other => ?_, fun other nonempty => ?_, ?_, returning⟩
        · rw [← chunkSize other]
          exact Pool.setBin_chunkSize (Bin.take_chunkSize _ _ _) other
        · dsimp only at nonempty
          rw [Pool.take_freeStack top] at nonempty
          split at nonempty
          · rename_i same
            exact same ▸ from_stock
          · exact stacked other nonempty
        · simpa using ⟨from_stock, fun thread id => referenced (thread, id)⟩
  | retain thread id =>
      simp only [PoolSystem.step, Option.ite_none_right_eq_some, Option.some.injEq] at stepped
      obtain ⟨⟨-, present⟩, rfl⟩ := stepped
      refine ⟨binCount, fun bin => ?_, fun bin nonempty => ?_, ?_, returning⟩
      · exact (count_kept _ _ bin).trans (chunkSize bin)
      · dsimp only [Pool.retain] at nonempty
        rw [(Pool.setRefCnt_bins _ _ _ _).1] at nonempty
        exact stacked bin nonempty
      · intro reference new
        rcases List.mem_cons.mp new with rfl | old
        · exact referenced _ present
        · exact referenced reference old
  | give thread receiver id =>
      simp only [PoolSystem.step, Option.ite_none_right_eq_some, Option.some.injEq] at stepped
      obtain ⟨⟨-, present⟩, rfl⟩ := stepped
      refine ⟨binCount, chunkSize, stacked, fun reference new => ?_, returning⟩
      rcases List.mem_cons.mp new with rfl | old
      · exact referenced (thread, id) present
      · exact referenced reference (List.mem_of_mem_erase old)
  | release thread id =>
      simp only [PoolSystem.step, Option.ite_none_right_eq_some, Option.some.injEq] at stepped
      obtain ⟨⟨-, present⟩, rfl⟩ := stepped
      refine ⟨binCount, fun bin => ?_, fun bin nonempty => ?_, fun reference old => ?_, ?_⟩
      · exact (count_kept _ _ bin).trans (chunkSize bin)
      · dsimp only [Pool.decrement] at nonempty
        rw [(Pool.setRefCnt_bins _ _ _ _).1] at nonempty
        exact stacked bin nonempty
      · exact referenced reference (List.mem_of_mem_erase old)
      · intro other id' returns
        dsimp only at returns
        split at returns
        · rcases eq_or_ne other thread with rfl | different
          · rw [Function.update_self] at returns
            obtain rfl := Option.some.inj returns
            exact referenced (other, id) present
          · rw [Function.update_of_ne different] at returns
            exact returning other id' returns
        · exact returning other id' returns
  | putBack thread =>
      simp only [PoolSystem.step] at stepped
      split at stepped
      · rename_i id returns
        obtain rfl := Option.some.inj stepped
        have from_stock : Stocked config id.bin := returning thread id returns
        refine ⟨binCount, fun bin => ?_, fun bin nonempty => ?_, referenced, ?_⟩
        · rw [← chunkSize bin]
          exact Pool.setBin_chunkSize (by rfl) bin
        · rcases eq_or_ne bin id.bin with rfl | different
          · exact from_stock
          · dsimp only [Pool.putBack] at nonempty
            rw [Pool.setBin_bins_ne _ _ different] at nonempty
            exact stacked bin nonempty
        · intro other id' returns'
          dsimp only at returns'
          rcases eq_or_ne other thread with rfl | different
          · simp at returns'
          · rw [Function.update_of_ne different] at returns'
            exact returning other id' returns'
      · cases stepped

/-! ## When the first fit is the best -/

/-- If every request gets the best fit as long as buffers are allocated, then of two bins with free
chunks the first is not the larger one. -/
theorem le_of_fitsBest {sys : PoolSystem θ} {thread : θ} {first second : Nat}
    (before : first < second)
    (best : ∀ later : PoolSystem θ, Reachable step (Initial config) later → later.pool.FitsBest)
    (reach : Reachable step (Initial config) sys) (idle : sys.releasing thread = none)
    (inside : second < sys.pool.binCount) (nonempty : (sys.pool.bins first).freeStack ≠ [])
    (nonempty' : (sys.pool.bins second).freeStack ≠ []) :
    (sys.pool.bins first).chunkSize ≤ (sys.pool.bins second).chunkSize := by
  induction stock : ∑ bin ∈ Finset.range first, (sys.pool.bins bin).freeStack.length using
    Nat.strong_induction_on generalizing sys with
  | _ total ih =>
  by_contra larger
  let size := (sys.pool.bins second).chunkSize
  have small : size.toNat + (0 : UInt32).toNat < 2 ^ 32 := size.toNat_lt
  have sufficient : sys.pool.Sufficient (size.toNat + (0 : UInt32).toNat) second :=
    ⟨inside, Nat.le_refl _, nonempty'⟩
  have sufficient' : sys.pool.Sufficient (size.toNat + (0 : UInt32).toNat) first :=
    ⟨before.trans inside, (UInt32.lt_iff_toNat_lt.mp (UInt32.not_le.mp larger)).le, nonempty⟩
  rcases sys.pool.alloc_cases_of_small small with
    ⟨-, none_sufficient⟩ | ⟨bin, index, rest, enough, earliest, top, taken⟩
  · exact none_sufficient second sufficient
  · have least := ((best sys reach size 0 small).least ⟨bin, index⟩ (by rw [taken])).2.2
    have not_after : ¬ first < bin := fun after => earliest first after sufficient'
    have different : bin ≠ first := by
      rintro rfl
      exact larger (least second sufficient)
    have earlier : bin < first := by omega
    let next : PoolSystem θ :=
      { sys with
        pool := (sys.pool.alloc size 0).1
        references := ((sys.pool.alloc size 0).2.map fun id => (thread, id)).toList ++
          sys.references }
    have stepped : sys.step (.alloc thread size 0) = some next := if_pos idle
    have pool_eq : next.pool = sys.pool.setBin bin ((sys.pool.bins bin).take size 0) := by
      simp only [next, taken]
    have remaining (other : Nat) : (next.pool.bins other).freeStack =
        if other = bin then rest else (sys.pool.bins other).freeStack := by
      rw [pool_eq, Pool.take_freeStack top]
    have sizes (other : Nat) :
        (next.pool.bins other).chunkSize = (sys.pool.bins other).chunkSize := by
      rw [pool_eq]
      exact Pool.setBin_chunkSize (Bin.take_chunkSize _ _ _) other
    have fewer : ∑ other ∈ Finset.range first, (next.pool.bins other).freeStack.length < total := by
      rw [← stock]
      refine Finset.sum_lt_sum (fun other _ => ?_) ⟨bin, Finset.mem_range.mpr earlier, ?_⟩
      · rw [remaining]
        split
        · rename_i same
          simp [same, top]
        · exact Nat.le_refl _
      · rw [remaining, if_pos rfl, top]
        exact Nat.lt_succ_self _
    have le := ih _ fewer (.step reach trivial stepped) idle
      (by rw [pool_eq]; exact inside)
      (by rw [remaining, if_neg (by omega)]; exact nonempty)
      (by rw [remaining, if_neg (by omega)]; exact nonempty') rfl
    rw [sizes, sizes] at le
    exact larger le

/-- In every reachable state every request gets the best fit exactly if the configuration lists its
bins in ascending order. -/
theorem fitsBest_iff_ascending (thread : θ) (config : List PoolDef)
    (initialised : (initPool config).isSome = true) :
    (∀ sys : PoolSystem θ, Reachable step (Initial config) sys → sys.pool.FitsBest) ↔
      Ascending config := by
  rw [ascending_iff]
  constructor
  · intro best first second before inside stocked stocked'
    have initial : (fresh config : PoolSystem θ).Initial config :=
      fresh_initial (by simpa [initPool] using initialised)
    have idle : (fresh config : PoolSystem θ).releasing thread = none := rfl
    exact le_of_fitsBest before best (.start initial) idle inside stocked stocked'
  · intro sorted sys reach
    obtain ⟨binCount, chunkSize, stacked, -, -⟩ : sys.FromConfig config :=
      Reach.invariant (FromConfig config) (fun _ initial => .of_initial initial)
        (fun _ _ _ kept _ stepped => kept.step stepped) reach
    refine Pool.fitsBest_of_sorted fun first second before inside nonempty nonempty' => ?_
    rw [chunkSize, chunkSize]
    exact sorted first second before (binCount ▸ inside) (stacked first nonempty)
      (stacked second nonempty')

instance (config : List PoolDef) : Decidable (Ascending config) :=
  inferInstanceAs (Decidable (List.Pairwise _ _))

/-- A small buffer has been allocated, and the small bin comes first. -/
theorem small_bin_first :
    ∃ sys : PoolSystem Unit, (fresh [⟨64, 2⟩, ⟨2048, 2⟩]).step (.alloc () 40 16) = some sys ∧
      sys.pool.FitsBest := by
  have stepped :
      (fresh [⟨64, 2⟩, ⟨2048, 2⟩] : PoolSystem Unit).step (.alloc () 40 16) = some _ := rfl
  refine ⟨_, stepped, ?_⟩
  exact (fitsBest_iff_ascending () [⟨64, 2⟩, ⟨2048, 2⟩] (by decide)).mpr (by decide) _
    (.step (.start (fresh_initial (by decide))) trivial stepped)

/-- A large bin that comes first gives its buffer to a small message. -/
theorem large_bin_first :
    ∃ (config : List PoolDef) (sys : PoolSystem Unit) (size headroom : UInt32),
      Reachable step (Initial config) sys ∧ size.toNat + headroom.toNat < 2 ^ 32 ∧
        ¬ sys.pool.BestFit size headroom := by
  refine ⟨[⟨2048, 1⟩, ⟨64, 1⟩], fresh _, 40, 0, .start (fresh_initial (by decide)), by decide,
    fun best => ?_⟩
  have least := (best.least ⟨0, 0⟩ (by decide)).2.2 1 ⟨by decide, by decide, by decide⟩
  exact absurd least (by decide)

end PoolSystem

end CodexNos.Memory
