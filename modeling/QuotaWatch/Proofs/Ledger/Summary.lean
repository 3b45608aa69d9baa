import Mathlib.Algebra.BigOperators.Group.Finset.Piecewise
import Mathlib.Algebra.GroupWithZero.Nat
import Mathlib.Data.List.Sort
import QuotaWatch.Ledger.Entry

/-!
# What a summary adds up to

`Summary.add` counts one entry into six fields at once. `Summary.Aggregates` says what the fields
have to be for a list of entries, with exact sums of natural numbers that are cut off at the
greatest 64-bit number in the end only (`capped`). One more entry keeps that (`Aggregates.add`), so
it holds of every summary (`aggregates_ofEntries`).

The rest follows from it without another look at the fold. Every entry belongs to one bucket of its
model and to one of its system (`sum_groups`), and sums may be cut off on the way (`capped_sum`).
Buckets are determined by what they count, because their names are in ascending order
(`Groups.unique`), so the order of the entries does not matter for them.

* **`summary_reference`**: a summary is the reference aggregate, its buckets add up to its totals,
  and of its fields only the first and the last time depend on the order of the entries.
-/

namespace QuotaWatch

variable {a b : Bucket} {buckets other : Buckets} {field : LogEntry → String}
  {entries others : List LogEntry} {e : LogEntry} {s : Summary}

/-! ## Sums that are cut off -/

/-- A number, or the greatest 64-bit number if that is less. -/
def capped (n : Nat) : Nat := min n (2 ^ 64 - 1)

/-- A number that is added may have met a sum that was cut off already. -/
theorem capped_capped_add (m n : Nat) : capped (capped m + n) = capped (m + n) := by
  simp only [capped]
  omega

/-- Counting up to the greatest number and no further is an exact sum that is cut off. -/
theorem toNat_saturatingAdd (m n : UInt64) :
    (saturatingAdd m n).toNat = capped (m.toNat + n.toNat) := by
  unfold saturatingAdd capped
  split
  next hlt =>
    simp only [UInt64.size] at hlt
    rw [UInt64.toNat_add]
    omega
  next hge =>
    simp only [UInt64.size] at hge
    rw [Nat.min_eq_right (by omega)]
    rfl

/-- **A sum may be cut off on the way**, as long as it is cut off in the end. -/
theorem capped_sum (sums : List Nat) : capped (sums.map capped).sum = capped sums.sum := by
  induction sums with
  | nil => rfl
  | cons n rest ih =>
    rw [List.map_cons, List.sum_cons, List.sum_cons, capped_capped_add, Nat.add_comm,
      ← capped_capped_add, ih, capped_capped_add, Nat.add_comm]

/-! ## What buckets and summaries have to be -/

/-- The exact sum of the tokens of some entries. -/
def tokenSum (entries : List LogEntry) : Nat := (entries.map (·.totalTokens.toNat)).sum

/-- A bucket holds the number of some entries and their tokens. -/
structure Bucket.Counts (b : Bucket) (entries : List LogEntry) : Prop where
  count : b.count.toNat = entries.length
  tokens : b.tokens.toNat = capped (tokenSum entries)

/-- Entries that have a name in a field. -/
def withName (field : LogEntry → String) (name : String) (entries : List LogEntry) :
    List LogEntry :=
  entries.filter fun e => field e = name

/-- There is a bucket for each name that occurs in a field of some entries, and for no other, and it
counts the entries with that name. -/
structure Buckets.Groups (buckets : Buckets) (field : LogEntry → String)
    (entries : List LogEntry) : Prop where
  occurs : ∀ name, name ∈ buckets.entries.map (·.1) ↔ name ∈ entries.map field
  counts : ∀ b ∈ buckets.entries, b.2.Counts (withName field b.1 entries)

/-- What a summary of some entries has to be. -/
structure Summary.Aggregates (s : Summary) (entries : List LogEntry) : Prop where
  totalEntries : s.totalEntries.toNat = entries.length
  totalTokens : s.totalTokens.toNat = capped (tokenSum entries)
  byModel : s.byModel.Groups (·.model) entries
  bySystem : s.bySystem.Groups (·.system) entries
  firstEntry : s.firstEntry = entries.head?.map (·.timestamp)
  lastEntry : s.lastEntry = entries.getLast?.map (·.timestamp)

/-! ## One more entry -/

theorem tokenSum_concat (entries : List LogEntry) (e : LogEntry) :
    tokenSum (entries ++ [e]) = tokenSum entries + e.totalTokens.toNat := by
  simp [tokenSum]

theorem withName_concat (name : String) (entries : List LogEntry) (e : LogEntry) :
    withName field name (entries ++ [e])
      = withName field name entries ++ if field e = name then [e] else [] := by
  by_cases h : field e = name <;> simp [withName, h]

/-- A name that no entry has has no entries. -/
theorem withName_eq_nil {name : String} (h : name ∉ entries.map field) :
    withName field name entries = [] := by
  refine List.filter_eq_nil_iff.mpr fun e hmem => ?_
  simp only [decide_eq_true_eq]
  rintro rfl
  exact h (List.mem_map_of_mem hmem)

/-- A count does not overflow as long as there are fewer entries than 64 bits can count. -/
theorem toNat_succ {count : UInt64} (h : count.toNat + 1 < 2 ^ 64) :
    (count + 1).toNat = count.toNat + 1 := by
  rw [UInt64.toNat_add]
  exact Nat.mod_eq_of_lt h

/-- Tokens are added up as exact sums would be. -/
theorem toNat_saturatingAdd_tokens {tokens : UInt64} (h : tokens.toNat = capped (tokenSum entries))
    (e : LogEntry) :
    (saturatingAdd tokens e.totalTokens).toNat = capped (tokenSum (entries ++ [e])) := by
  rw [toNat_saturatingAdd, h, capped_capped_add, tokenSum_concat]

theorem Bucket.counts_empty : Bucket.Counts ⟨0, 0⟩ [] := ⟨rfl, rfl⟩

/-- One more entry is counted into a bucket. -/
theorem Bucket.Counts.add (h : b.Counts entries) (hlen : entries.length + 1 < 2 ^ 64)
    (e : LogEntry) : (b.add e.totalTokens).Counts (entries ++ [e]) where
  count := by
    rw [Bucket.add, toNat_succ (h.count ▸ hlen), h.count, List.length_append,
      List.length_singleton]
  tokens := toNat_saturatingAdd_tokens h.tokens e

/-- **What stands in buckets after a change**: the other buckets, and the changed one, which is made
new if there was none. Buckets are kept in the order of their names, and the order is what tells
that a name is missing. -/
theorem mem_updateBucket_iff {name : String} {f : Bucket → Bucket} {x : String × Bucket} :
    ∀ {entries : List (String × Bucket)}, entries.Pairwise (fun a b => a.1 < b.1) →
      (x ∈ updateBucket name f entries ↔
        x ∈ entries ∧ x.1 ≠ name ∨
          ∃ old, x = (name, f old)
            ∧ ((name, old) ∈ entries ∨ name ∉ entries.map (·.1) ∧ old = ⟨0, 0⟩))
  | [], _ => by simp [updateBucket]
  | (n, b) :: rest, h => by
    have behind : ∀ y ∈ rest, n < y.1 := fun y hy => List.rel_of_pairwise_cons h hy
    rw [updateBucket]
    split
    next hlt =>
      -- the name is less than all others, so it has no bucket yet
      have hne : ∀ y ∈ (n, b) :: rest, y.1 ≠ name := by
        rintro y hy rfl
        rcases List.mem_cons.mp hy with rfl | hy
        · exact Std.lt_irrefl hlt
        · exact Std.lt_irrefl (String.lt_trans hlt (behind y hy))
      grind
    next hnot =>
      split
      next heq =>
        subst heq
        have hne : ∀ y ∈ rest, y.1 ≠ name := by
          rintro y hy rfl
          exact Std.lt_irrefl (behind y hy)
        grind
      next hne =>
        have ih := @mem_updateBucket_iff name f x rest h.of_cons
        rw [List.mem_cons, ih]
        grind

/-- A change adds the name to those that have a bucket. -/
theorem occurs_update (buckets : Buckets) (name : String) (f : Bucket → Bucket) (other : String) :
    other ∈ (buckets.update name f).entries.map (·.1) ↔
      other ∈ buckets.entries.map (·.1) ∨ other = name := by
  have hmem (x : String × Bucket) := @mem_updateBucket_iff name f x _ buckets.sorted
  -- the bucket that is updated is there afterwards, whether it was before or not
  have hname : name ∈ (buckets.update name f).entries.map (·.1) := by
    by_cases hold : name ∈ buckets.entries.map (·.1)
    · obtain ⟨⟨name, old⟩, hbucket, rfl⟩ := List.mem_map.mp hold
      exact List.mem_map.mpr ⟨_, (hmem _).mpr (.inr ⟨old, rfl, .inl hbucket⟩), rfl⟩
    · exact List.mem_map.mpr ⟨_, (hmem _).mpr (.inr ⟨_, rfl, .inr ⟨hold, rfl⟩⟩), rfl⟩
  constructor
  · rintro hother
    obtain ⟨x, hx, rfl⟩ := List.mem_map.mp hother
    rcases (hmem x).mp hx with ⟨hx, _⟩ | ⟨old, rfl, _⟩
    · exact .inl (List.mem_map_of_mem hx)
    · exact .inr rfl
  · rintro (hother | rfl)
    · obtain ⟨x, hx, rfl⟩ := List.mem_map.mp hother
      by_cases hne : x.1 = name
      · exact hne ▸ hname
      · exact List.mem_map_of_mem ((hmem x).mpr (.inl ⟨hx, hne⟩))
    · exact hname

/-- **An entry is counted into the bucket of its name**, and all other buckets count what they did.
-/
theorem Buckets.Groups.add (h : buckets.Groups field entries)
    (hlen : entries.length + 1 < 2 ^ 64) (e : LogEntry) :
    (buckets.update (field e) (·.add e.totalTokens)).Groups field (entries ++ [e]) where
  occurs name := by
    rw [occurs_update, h.occurs]
    simp
  counts := by
    intro x hx
    -- a bucket of another name is as it was
    rcases (mem_updateBucket_iff buckets.sorted).mp hx with ⟨hmem, hne⟩ | ⟨old, rfl, hold⟩
    · rw [withName_concat, if_neg (Ne.symm hne), List.append_nil]
      exact h.counts x hmem
    · have hcounts : old.Counts (withName field (field e) entries) := by
        rcases hold with hmem | ⟨hnew, rfl⟩
        · exact h.counts _ hmem
        · rw [withName_eq_nil (mt (h.occurs _).mpr hnew)]
          exact Bucket.counts_empty
      have hle : (withName field (field e) entries).length ≤ entries.length :=
        List.length_filter_le _ _
      rw [withName_concat, if_pos rfl]
      exact hcounts.add (by omega) e

theorem Buckets.groups_empty : Buckets.empty.Groups field [] :=
  ⟨by simp [Buckets.empty], by simp [Buckets.empty]⟩

/-- **One more entry** is counted into all fields. -/
theorem Summary.Aggregates.add (h : s.Aggregates entries) (hlen : entries.length + 1 < 2 ^ 64)
    (e : LogEntry) : (s.add e).Aggregates (entries ++ [e]) where
  totalEntries := by
    rw [Summary.add, toNat_succ (h.totalEntries ▸ hlen), h.totalEntries, List.length_append,
      List.length_singleton]
  totalTokens := toNat_saturatingAdd_tokens h.totalTokens e
  byModel := h.byModel.add hlen e
  bySystem := h.bySystem.add hlen e
  firstEntry := by
    rw [Summary.add, h.firstEntry, List.head?_append]
    cases entries <;> rfl
  lastEntry := by
    rw [Summary.add, List.getLast?_concat]
    rfl

/-- **Every summary is the aggregate of its entries.** Induction from the end, as the entries are
added. -/
theorem aggregates_ofEntries :
    ∀ entries : List LogEntry, entries.length < 2 ^ 64 →
      (Summary.ofEntries entries).Aggregates entries := by
  intro entries
  induction entries using List.reverseRecOn with
  | nil => exact fun _ => ⟨rfl, rfl, Buckets.groups_empty, Buckets.groups_empty, rfl, rfl⟩
  | append_singleton entries e ih =>
    intro hlen
    rw [List.length_append, List.length_singleton] at hlen
    -- the summary is built entry by entry, from the front
    have hadd : Summary.ofEntries (entries ++ [e]) = (Summary.ofEntries entries).add e := by
      simp [Summary.ofEntries]
    rw [hadd]
    exact (ih (by omega)).add hlen e

/-! ## Buckets add up -/

/-- No name has two buckets, because names are in ascending order. -/
theorem Buckets.nodup_names (buckets : Buckets) : (buckets.entries.map (·.1)).Nodup :=
  List.pairwise_map.mpr (buckets.sorted.imp Std.ne_of_lt)

/-- **Every entry has one name.** What is added up over the entries of each name is added up over
all entries. The names may be more than those that occur. -/
theorem sum_groups (measure : LogEntry → Nat) {names : List String} (hnodup : names.Nodup) :
    ∀ {entries : List LogEntry}, (∀ name ∈ entries.map field, name ∈ names) →
      (names.map fun name => ((withName field name entries).map measure).sum).sum
        = (entries.map measure).sum
  | [], _ => by simp [withName]
  | e :: rest, h => by
    have ih := sum_groups measure hnodup fun name hmem => h name (List.mem_cons_of_mem _ hmem)
    have hcons (name : String) : ((withName field name (e :: rest)).map measure).sum
        = (if name = field e then measure e else 0)
          + ((withName field name rest).map measure).sum := by
      by_cases heq : field e = name
      · simp [withName, heq]
      · simp [withName, heq, Ne.symm heq]
    -- an entry is counted under its own name and no other
    have hone :
        (names.map fun name => if name = field e then measure e else 0).sum = measure e := by
      have hmem : field e ∈ names.toFinset := List.mem_toFinset.mpr (h _ List.mem_cons_self)
      rw [← List.sum_toFinset _ hnodup, Finset.sum_ite_eq' names.toFinset (field e), if_pos hmem]
    simp only [hcons, List.sum_map_add, hone, ih, List.map_cons, List.sum_cons]

namespace Buckets.Groups

/-- The sum of a count over the buckets of a field is its sum over the entries. -/
theorem sum_buckets (h : buckets.Groups field entries) (measure : LogEntry → Nat) :
    (buckets.entries.map fun b => ((withName field b.1 entries).map measure).sum).sum
      = (entries.map measure).sum := by
  have hnames : ∀ name ∈ entries.map field, name ∈ buckets.entries.map (·.1) :=
    fun name hmem => (h.occurs name).mpr hmem
  have hsum := sum_groups measure buckets.nodup_names hnames
  rwa [List.map_map] at hsum

/-- **The counts of all buckets** add up to the number of entries. -/
theorem sum_counts (h : buckets.Groups field entries) :
    (buckets.entries.map (·.2.count.toNat)).sum = entries.length := by
  have hcounts : buckets.entries.map (·.2.count.toNat)
      = buckets.entries.map fun b => ((withName field b.1 entries).map fun _ => 1).sum :=
    List.map_congr_left fun b hmem => by simp [(h.counts b hmem).count]
  rw [hcounts, h.sum_buckets]
  simp

/-- **The tokens of all buckets** add up to those of all entries, cut off in the end. -/
theorem capped_sum_tokens (h : buckets.Groups field entries) :
    capped (buckets.entries.map (·.2.tokens.toNat)).sum = capped (tokenSum entries) := by
  have htokens : buckets.entries.map (·.2.tokens.toNat)
      = (buckets.entries.map fun b => tokenSum (withName field b.1 entries)).map capped := by
    rw [List.map_map]
    exact List.map_congr_left fun b hmem => (h.counts b hmem).tokens
  rw [htokens, capped_sum]
  exact congrArg capped (h.sum_buckets _)

/-! ## The order of the entries -/

/-- Buckets count the same entries in any order. -/
theorem perm (h : buckets.Groups field entries) (hperm : entries.Perm others) :
    buckets.Groups field others where
  occurs name := (h.occurs name).trans (hperm.map field).mem_iff
  counts b hmem := by
    have hwith : (withName field b.1 entries).Perm (withName field b.1 others) := hperm.filter _
    refine ⟨?_, ?_⟩
    · rw [(h.counts b hmem).count, hwith.length_eq]
    · rw [(h.counts b hmem).tokens, tokenSum, tokenSum, (hwith.map _).sum_eq]

/-- Buckets of the same entries hold the same buckets. -/
theorem subset (h : buckets.Groups field entries) (h' : other.Groups field entries) :
    buckets.entries ⊆ other.entries := by
  intro b hmem
  obtain ⟨b', hmem', hname⟩ := List.mem_map.mp
    ((h'.occurs b.1).mpr ((h.occurs b.1).mp (List.mem_map_of_mem hmem)))
  have hcounts := h.counts b hmem
  have hcounts' := h'.counts b' hmem'
  rw [hname] at hcounts'
  -- two buckets of the same entries count the same
  have hbucket : b'.2 = b.2 := by
    have hcount := UInt64.toNat_inj.mp (hcounts'.count.trans hcounts.count.symm)
    have htokens := UInt64.toNat_inj.mp (hcounts'.tokens.trans hcounts.tokens.symm)
    cases hb : b.2
    cases hb' : b'.2
    simp_all
  exact Prod.ext hname hbucket ▸ hmem'

/-- **Buckets are determined by what they count**: the same names with the same counts, in the one
order that names have. -/
theorem unique (h : buckets.Groups field entries) (h' : other.Groups field entries) :
    buckets = other := by
  have hnodup (buckets : Buckets) : buckets.entries.Nodup := buckets.nodup_names.of_map _
  have hperm : buckets.entries.Perm other.entries :=
    (List.perm_ext_iff_of_nodup (hnodup _) (hnodup _)).mpr
      fun b => ⟨fun hmem => h.subset h' hmem, fun hmem => h'.subset h hmem⟩
  -- in the order of their names there is one way to list them
  have hentries := hperm.eq_of_pairwise
    (fun _ _ _ _ hlt hgt => absurd (String.lt_trans hlt hgt) Std.lt_irrefl)
    buckets.sorted other.sorted
  cases buckets
  cases other
  simpa using hentries

end Buckets.Groups

/-- **A summary is the reference aggregate.** For fewer entries than 64 bits can count

* its fields are exact: the number of entries, their tokens, a bucket for each model and for each
  system that occurs, the first time and the last one;
* the buckets of either kind add up to its totals;
* entries in another order have the same summary but for the first time and the last one. -/
theorem summary_reference (entries : List LogEntry) (hlen : entries.length < 2 ^ 64) :
    let s := Summary.ofEntries entries
    s.Aggregates entries
      ∧ (s.byModel.entries.map (·.2.count.toNat)).sum = s.totalEntries.toNat
      ∧ (s.bySystem.entries.map (·.2.count.toNat)).sum = s.totalEntries.toNat
      ∧ capped (s.byModel.entries.map (·.2.tokens.toNat)).sum = s.totalTokens.toNat
      ∧ capped (s.bySystem.entries.map (·.2.tokens.toNat)).sum = s.totalTokens.toNat
      ∧ ∀ others, entries.Perm others →
          let t := Summary.ofEntries others
          t.totalEntries = s.totalEntries ∧ t.totalTokens = s.totalTokens
            ∧ t.byModel = s.byModel ∧ t.bySystem = s.bySystem := by
  intro s
  have h : s.Aggregates entries := aggregates_ofEntries entries hlen
  rw [h.totalEntries, h.totalTokens]
  refine ⟨h, h.byModel.sum_counts, h.bySystem.sum_counts, h.byModel.capped_sum_tokens,
    h.bySystem.capped_sum_tokens, fun others hperm => ?_⟩
  -- aggregates are determined by what they aggregate, in any order
  have h' := aggregates_ofEntries others (hperm.length_eq ▸ hlen)
  refine ⟨?_, ?_, h'.byModel.unique (h.byModel.perm hperm),
    h'.bySystem.unique (h.bySystem.perm hperm)⟩
  · rw [← UInt64.toNat_inj, h'.totalEntries, h.totalEntries, hperm.length_eq]
  · rw [← UInt64.toNat_inj, h'.totalTokens, h.totalTokens, tokenSum, tokenSum,
      (hperm.map _).sum_eq]

/-- An entry of which only what a summary looks at is given. -/
def briefEntry (timestamp model : String) (tokens : UInt64) (system : String) : LogEntry :=
  { timestamp, model, thinkingTokens := 0, inputTokens := 0, outputTokens := tokens,
    totalTokens := tokens, conversationId := "", sessionId := "", system }

/-- Three entries with more tokens than 64 bits can count, and in one bucket alone. -/
def overfullEntries : List LogEntry :=
  [briefEntry "t1" "b" 0xFFFFFFFFFFFFFFFF "x", briefEntry "t2" "a" 7 "y", briefEntry "t3" "b" 5 "x"]

/-- Sums are cut off in the totals and in one bucket; the other order exchanges the first and the
last time. -/
theorem summary_reference_overfull :
    let s := Summary.ofEntries overfullEntries
    let t := Summary.ofEntries overfullEntries.reverse
    overfullEntries.length < 2 ^ 64 ∧ s.totalEntries.toNat = 3 ∧ s.totalTokens.toNat = 2 ^ 64 - 1
      ∧ (∀ b ∈ s.byModel.entries,
          b.2.tokens.toNat = capped (tokenSum (withName (·.model) b.1 overfullEntries)))
      ∧ capped (s.bySystem.entries.map (·.2.tokens.toNat)).sum = 2 ^ 64 - 1
      ∧ s.firstEntry = some "t1" ∧ s.lastEntry = some "t3"
      ∧ t.byModel = s.byModel ∧ t.firstEntry = some "t3" := by
  have hlen : overfullEntries.length < 2 ^ 64 := by decide
  obtain ⟨h, -, -, -, hsystem, horder⟩ := summary_reference overfullEntries hlen
  have htokens : capped (tokenSum overfullEntries) = 2 ^ 64 - 1 := by decide +kernel
  obtain ⟨-, -, hmodel, -⟩ := horder _ overfullEntries.reverse_perm.symm
  exact ⟨hlen, h.totalEntries, h.totalTokens.trans htokens,
    fun b hmem => (h.byModel.counts b hmem).tokens,
    hsystem.trans (h.totalTokens.trans htokens), h.firstEntry, h.lastEntry, hmodel,
    by decide +kernel⟩

end QuotaWatch
