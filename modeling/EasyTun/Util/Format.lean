import Mathlib.Data.Nat.Digits.Defs
import Mathlib.Data.List.Perm.Subperm
import EasyTun.Lib.Bytes
import EasyTun.Lib.Maps

/-!
# Unique host names (`internal/util/format.go`)

`UniqueHostName` tries the name, then the name with `-1`, `-2`, … until one is
not in the table. The loop of the source has no bound; here it has fuel for one
probe more than the table has entries, which always suffices
(`probe_isSome`): the names it tries are pairwise different.

- `lookup_uniqueHostName`: **the name found is not in the table.**
- `alike_uniqueHostName`: it is the requested one, or begins with it and a dash.
- `Returns`: how a call runs, without any fuel, and how often it looks into the table.
- `uniqueHostName_returns`: **a call ends after at most one probe more than the table
  has entries**, with the least number that is free.
-/

namespace EasyTun.Util

open EasyTun.Lib

/-- `strconv.Itoa` of a natural number. -/
def itoa (n : Nat) : Bytes := (Nat.toDigits 10 n).map fun c => UInt8.ofNat c.toNat

/-- The candidate with the number `i`. -/
def numbered (hostname : Bytes) (i : Nat) : Bytes := hostname ++ [0x2d] ++ itoa i

variable {β : Type}

/-- The loop (format.go:35–42) from the number `i` on. -/
def probe (hostname : Bytes) (dnsMap : Map Bytes β) : Nat → Nat → Option Bytes
  | 0, _ => none
  | fuel + 1, i =>
    if (dnsMap.lookup (numbered hostname i)).isNone then some (numbered hostname i)
    else probe hostname dnsMap fuel (i + 1)

/-- `UniqueHostName` (format.go:28–43). -/
def uniqueHostName (hostname : Bytes) (dnsMap : Map Bytes β) : Bytes :=
  if (dnsMap.lookup hostname).isNone then hostname
  else (probe hostname dnsMap (dnsMap.keys.length + 1) 1).getD hostname

/-! ## The loop ends -/

theorem toNat_ofNat_of_isDigit {c : Char} (hc : c.isDigit = true) :
    (UInt8.ofNat c.toNat).toNat = c.toNat := by
  rw [UInt8.toNat_ofNat']
  simp only [Char.isDigit, Bool.and_eq_true, decide_eq_true_eq] at hc
  have h57 : c.toNat ≤ 57 := hc.2
  exact Nat.mod_eq_of_lt (by omega)

/-- Different numbers are written differently. -/
theorem itoa_inj {m n : Nat} (h : itoa m = itoa n) : m = n := by
  -- The bytes determine the characters, since all of them are digits.
  have hback : ∀ k, (itoa k).map (fun b => Char.ofNat b.toNat) = Nat.toDigits 10 k := by
    intro k
    rw [itoa, List.map_map]
    refine (List.map_congr_left fun c hc => ?_).trans (List.map_id _)
    have hd := Nat.isDigit_of_mem_toDigits (by decide) (by decide) hc
    show Char.ofNat (UInt8.ofNat c.toNat).toNat = c
    rw [toNat_ofNat_of_isDigit hd]
    exact Char.ofNat_toNat c
  have hdigits : Nat.toDigits 10 m = Nat.toDigits 10 n := by
    rw [← hback m, ← hback n, h]
  rw [← Nat.ofDigitChars_toDigits (b := 10) (n := m) (by decide) (by decide), hdigits]
  exact Nat.ofDigitChars_toDigits (by decide) (by decide)

theorem numbered_inj {hostname : Bytes} {i j : Nat}
    (h : numbered hostname i = numbered hostname j) : i = j :=
  itoa_inj (List.append_cancel_left h)

/-- What the loop returns is not in the table. -/
theorem lookup_of_probe {hostname name : Bytes} {dnsMap : Map Bytes β} {fuel i : Nat}
    (h : probe hostname dnsMap fuel i = some name) : dnsMap.lookup name = none := by
  induction fuel generalizing i with
  | zero => cases h
  | succ fuel ih =>
    unfold probe at h
    split at h
    · next hnone =>
      cases h
      exact Option.isNone_iff_eq_none.mp hnone
    · exact ih h

/-- When the loop runs out of fuel, all names it tried are in the table. -/
theorem mem_keys_of_probe_eq_none {hostname : Bytes} {dnsMap : Map Bytes β} {fuel i : Nat}
    (h : probe hostname dnsMap fuel i = none) :
    ∀ j, i ≤ j → j < i + fuel → numbered hostname j ∈ dnsMap.keys := by
  induction fuel generalizing i with
  | zero =>
    intro j hij hj
    omega
  | succ fuel ih =>
    unfold probe at h
    split at h
    · cases h
    · next hsome =>
      intro j hij hj
      by_cases hji : j = i
      · subst hji
        rw [Option.isNone_iff_eq_none, AList.lookup_eq_none, not_not] at hsome
        exact hsome
      · exact ih h j (by omega) (by omega)

/-- The candidates with the `n` numbers from `i` on. -/
def tried (hostname : Bytes) (i n : Nat) : List Bytes := (List.range' i n).map (numbered hostname)

theorem length_tried (hostname : Bytes) (i n : Nat) : (tried hostname i n).length = n := by
  rw [tried, List.length_map, List.length_range']

theorem nodup_tried (hostname : Bytes) (i n : Nat) : (tried hostname i n).Nodup :=
  List.Nodup.map (fun _ _ => numbered_inj) List.nodup_range'

theorem tried_subset {hostname : Bytes} {i n : Nat} {names : List Bytes}
    (h : ∀ j, i ≤ j → j < i + n → numbered hostname j ∈ names) : tried hostname i n ⊆ names := by
  intro name hname
  obtain ⟨j, hj, rfl⟩ := List.mem_map.mp hname
  obtain ⟨hij, hj⟩ := List.mem_range'_1.mp hj
  exact h j hij hj

/-- One probe more than the table has entries is enough. -/
theorem probe_isSome (hostname : Bytes) (dnsMap : Map Bytes β) (i : Nat) :
    (probe hostname dnsMap (dnsMap.keys.length + 1) i).isSome = true := by
  cases h : probe hostname dnsMap (dnsMap.keys.length + 1) i with
  | some name => rfl
  | none =>
    -- The names tried would be more than there are keys.
    have hsub := tried_subset (mem_keys_of_probe_eq_none h)
    have hle := (List.subperm_of_subset (nodup_tried ..) hsub).length_le
    rw [length_tried] at hle
    omega

/-- **`UniqueHostName` finds a name that is not in the table.** -/
theorem lookup_uniqueHostName (hostname : Bytes) (dnsMap : Map Bytes β) :
    dnsMap.lookup (uniqueHostName hostname dnsMap) = none := by
  by_cases hnone : (dnsMap.lookup hostname).isNone = true
  · rw [uniqueHostName, if_pos hnone]
    exact Option.isNone_iff_eq_none.mp hnone
  · obtain ⟨name, hname⟩ := Option.isSome_iff_exists.mp (probe_isSome hostname dnsMap 1)
    rw [uniqueHostName, if_neg hnone, hname]
    exact lookup_of_probe hname

/-! ## What a request can lead to -/

/-- The names that a request can lead to are among these: the requested one, and those that begin
with it and a dash. -/
def Alike (hostname name : Bytes) : Prop := name = hostname ∨ hostname ++ [0x2d] <+: name

instance (hostname name : Bytes) : Decidable (Alike hostname name) :=
  inferInstanceAs (Decidable (_ ∨ _))

theorem alike_of_probe {hostname name : Bytes} {dnsMap : Map Bytes β} {fuel i : Nat}
    (h : probe hostname dnsMap fuel i = some name) : Alike hostname name := by
  induction fuel generalizing i with
  | zero => cases h
  | succ fuel ih =>
    unfold probe at h
    split at h
    · cases h
      exact Or.inr (List.prefix_append ..)
    · exact ih h

/-- **`UniqueHostName` finds a name like the requested one.** -/
theorem alike_uniqueHostName (hostname : Bytes) (dnsMap : Map Bytes β) :
    Alike hostname (uniqueHostName hostname dnsMap) := by
  unfold uniqueHostName
  split
  · exact Or.inl rfl
  · obtain ⟨name, hname⟩ := Option.isSome_iff_exists.mp (probe_isSome hostname dnsMap 1)
    rw [hname]
    exact alike_of_probe hname

/-! ## How a call runs -/

/-- The loop of the source, without a bound: from the number `i` on it looks `n` times
into the table and then returns `name`. -/
inductive Probes (hostname : Bytes) (dnsMap : Map Bytes β) : Nat → Nat → Bytes → Prop
  | found {i : Nat} (hfree : numbered hostname i ∉ dnsMap) :
      Probes hostname dnsMap i 1 (numbered hostname i)
  | next {i n : Nat} {name : Bytes} (htaken : numbered hostname i ∈ dnsMap)
      (hrest : Probes hostname dnsMap (i + 1) n name) : Probes hostname dnsMap i (n + 1) name

/-- A call of `UniqueHostName` that looks `n` times into the table and returns `name`. -/
inductive Returns (hostname : Bytes) (dnsMap : Map Bytes β) : Nat → Bytes → Prop
  | asIs (hfree : hostname ∉ dnsMap) : Returns hostname dnsMap 1 hostname
  | loop {n : Nat} {name : Bytes} (htaken : hostname ∈ dnsMap)
      (hloop : Probes hostname dnsMap 1 n name) : Returns hostname dnsMap (n + 1) name

section Runs

variable {hostname name name' : Bytes} {dnsMap : Map Bytes β} {i n n' : Nat}

/-- What the loop with fuel finds, the loop without finds. -/
theorem probes_of_probe {fuel : Nat} (h : probe hostname dnsMap fuel i = some name) :
    ∃ n, Probes hostname dnsMap i n name := by
  induction fuel generalizing i with
  | zero => cases h
  | succ fuel ih =>
    unfold probe at h
    split at h
    · next hnone =>
      cases h
      rw [Option.isNone_iff_eq_none, AList.lookup_eq_none] at hnone
      exact ⟨1, .found hnone⟩
    · next hsome =>
      obtain ⟨n, hn⟩ := ih h
      rw [Option.isNone_iff_eq_none, AList.lookup_eq_none, not_not] at hsome
      exact ⟨n + 1, .next hsome hn⟩

/-- The loop returns the first free candidate, and its number tells how many probes
that took. -/
theorem Probes.least (h : Probes hostname dnsMap i n name) :
    ∃ j, i ≤ j ∧ n = j - i + 1 ∧ name = numbered hostname j ∧ name ∉ dnsMap ∧
      ∀ k, i ≤ k → k < j → numbered hostname k ∈ dnsMap := by
  induction h with
  | @found i hfree =>
    refine ⟨i, Nat.le_refl i, by omega, rfl, hfree, ?_⟩
    intro k hik hki
    omega
  | @next i n name htaken hrest ih =>
    obtain ⟨j, hij, hn, hname, hfree, hbelow⟩ := ih
    refine ⟨j, by omega, by omega, hname, hfree, ?_⟩
    intro k hik hkj
    by_cases hki : k = i
    · subst hki
      exact htaken
    · exact hbelow k (by omega) hkj

theorem Probes.deterministic (h : Probes hostname dnsMap i n name)
    (h' : Probes hostname dnsMap i n' name') : n' = n ∧ name' = name := by
  induction h generalizing n' with
  | found hfree =>
    cases h' with
    | found => exact ⟨rfl, rfl⟩
    | next htaken => exact absurd htaken hfree
  | next htaken hrest ih =>
    cases h' with
    | found hfree => exact absurd htaken hfree
    | next _ hrest' =>
      obtain ⟨hn, hname⟩ := ih hrest'
      exact ⟨congrArg (· + 1) hn, hname⟩

theorem Returns.deterministic (h : Returns hostname dnsMap n name)
    (h' : Returns hostname dnsMap n' name') : n' = n ∧ name' = name := by
  cases h with
  | asIs hfree =>
    cases h' with
    | asIs => exact ⟨rfl, rfl⟩
    | loop htaken => exact absurd htaken hfree
  | loop htaken hloop =>
    cases h' with
    | asIs hfree => exact absurd htaken hfree
    | loop _ hloop' =>
      obtain ⟨hn, hname⟩ := hloop.deterministic hloop'
      exact ⟨congrArg (· + 1) hn, hname⟩

/-- The name itself is none of the candidates. -/
theorem numbered_ne (hostname : Bytes) (i : Nat) : numbered hostname i ≠ hostname := by
  intro h
  have hlen := congrArg List.length h
  rw [numbered, List.length_append, List.length_append, List.length_singleton] at hlen
  omega

/-- **The bound**: the name and all candidates before the last one are different keys. -/
theorem Returns.le (h : Returns hostname dnsMap n name) : n ≤ dnsMap.keys.length + 1 := by
  cases h with
  | asIs hfree => exact Nat.le_add_left ..
  | @loop n _ htaken hloop =>
    obtain ⟨j, hj, hn, -, -, hbelow⟩ := hloop.least
    have hsub : hostname :: tried hostname 1 (j - 1) ⊆ dnsMap.keys := by
      refine List.cons_subset.mpr ⟨htaken, tried_subset ?_⟩
      intro k hk hkj
      exact hbelow k hk (by omega)
    have hnodup : (hostname :: tried hostname 1 (j - 1)).Nodup := by
      refine List.nodup_cons.mpr ⟨?_, nodup_tried ..⟩
      intro hmem
      obtain ⟨k, -, hk⟩ := List.mem_map.mp hmem
      exact numbered_ne hostname k hk
    have hle := (List.subperm_of_subset hnodup hsub).length_le
    rw [List.length_cons, length_tried] at hle
    omega

end Runs

/-- A call returns, and returns what `uniqueHostName` computes. -/
theorem exists_returns (hostname : Bytes) (dnsMap : Map Bytes β) :
    ∃ n, Returns hostname dnsMap n (uniqueHostName hostname dnsMap) := by
  unfold uniqueHostName
  split
  · next hnone =>
    rw [Option.isNone_iff_eq_none, AList.lookup_eq_none] at hnone
    exact ⟨1, .asIs hnone⟩
  · next hsome =>
    obtain ⟨name, hname⟩ := Option.isSome_iff_exists.mp (probe_isSome hostname dnsMap 1)
    obtain ⟨n, hn⟩ := probes_of_probe hname
    rw [Option.isNone_iff_eq_none, AList.lookup_eq_none, not_not] at hsome
    rw [hname]
    exact ⟨n + 1, .loop hsome hn⟩

/-- **`UniqueHostName` terminates with a fresh name**, after at most one probe more than
the table has entries: the name itself if it is free, else the candidate with the least
free number. -/
theorem uniqueHostName_returns (hostname : Bytes) (dnsMap : Map Bytes β) :
    (∃ n ≤ dnsMap.keys.length + 1,
      Returns hostname dnsMap n (uniqueHostName hostname dnsMap) ∧
      ∀ n' name, Returns hostname dnsMap n' name →
        n' = n ∧ name = uniqueHostName hostname dnsMap) ∧
    uniqueHostName hostname dnsMap ∉ dnsMap ∧
    (hostname ∉ dnsMap → uniqueHostName hostname dnsMap = hostname) ∧
    (hostname ∈ dnsMap → ∃ i, 1 ≤ i ∧
      uniqueHostName hostname dnsMap = numbered hostname i ∧
      ∀ j, 1 ≤ j → j < i → numbered hostname j ∈ dnsMap) := by
  obtain ⟨n, hn⟩ := exists_returns hostname dnsMap
  refine ⟨⟨n, hn.le, hn, fun n' name h' => hn.deterministic h'⟩, ?_, ?_, ?_⟩
  · exact AList.lookup_eq_none.mp (lookup_uniqueHostName hostname dnsMap)
  · intro hfree
    exact (hn.deterministic (.asIs hfree)).2.symm
  · intro htaken
    generalize uniqueHostName hostname dnsMap = name at hn
    cases hn with
    | asIs hfree => exact absurd htaken hfree
    | loop _ hloop =>
      obtain ⟨i, hi, -, hname, -, hbelow⟩ := hloop.least
      exact ⟨i, hi, hname, hbelow⟩

end EasyTun.Util
