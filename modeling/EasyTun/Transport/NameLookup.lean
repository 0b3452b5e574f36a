import EasyTun.Transport.Addresses
import EasyTun.Transport.Dns

/-!
# Looking names up (`internal/transport/server_dns.go`)

A client is registered under its host name `h` and is to be found as `h.et.`. `getDns`
goes back from the query to the host name by deleting the first `.et.` in it, wherever
that is. So it finds the host name if the first `.et.` of the query is the one at its end;
and if the query has another one, or none, what is left of it is looked up all the same.
Host names are what clients send, without any restriction.

- `removeFirst_cases`: what `strings.Replace` of one occurrence by nothing does.
- `getDns_eq_some_iff`: **lookup inverts registration** for host names that do not end in a
  dot and in which the domain is not found before its place.
- `getDns_misses`, `getDns_mistakes`: host names that break each half of that.
-/

namespace EasyTun.Transport

open EasyTun.Lib EasyTun.Util EasyTun.Protocol

/-! ## Deleting an occurrence -/

/-- **What `removeFirst` does**: nothing if there is no occurrence, else it deletes one. -/
theorem removeFirst_cases {old : Bytes} (hne : old ≠ []) (l : Bytes) :
    (¬old <:+: l ∧ removeFirst old l = l) ∨
    ∃ before behind, l = before ++ old ++ behind ∧ removeFirst old l = before ++ behind := by
  induction l with
  | nil => exact Or.inl ⟨fun h => hne (List.infix_nil.mp h), rfl⟩
  | cons b rest ih =>
    unfold removeFirst
    split
    · next hprefix =>
      obtain ⟨behind, hsplit⟩ := List.isPrefixOf_iff_prefix.mp hprefix
      refine Or.inr ⟨[], behind, hsplit.symm, ?_⟩
      rw [← hsplit, List.drop_left]
      rfl
    · next hprefix =>
      rcases ih with ⟨hnot, hsame⟩ | ⟨before, behind, hsplit, hremoved⟩
      · refine Or.inl ⟨?_, by rw [hsame]⟩
        rw [List.infix_cons_iff]
        rintro (hhere | hrest)
        · exact hprefix (List.isPrefixOf_iff_prefix.mpr hhere)
        · exact hnot hrest
      · refine Or.inr ⟨b :: before, behind, ?_, ?_⟩
        · rw [hsplit]
          rfl
        · rw [hremoved]
          rfl

/-- The occurrence at the end is deleted, if none begins before it. -/
theorem removeFirst_append {old : Bytes} (hne : old ≠ []) {name : Bytes}
    (h : ¬old <:+: name ++ old.dropLast) : removeFirst old (name ++ old) = name := by
  rcases removeFirst_cases hne (name ++ old) with ⟨hnot, -⟩ | ⟨before, behind, hsplit, hremoved⟩
  · exact absurd (List.suffix_append name old).isInfix hnot
  · by_cases hend : behind = []
    · subst hend
      rw [List.append_nil] at hsplit hremoved
      rw [hremoved, List.append_cancel_right hsplit]
    · -- something is left behind the occurrence: it is in the string without its last byte
      have hshort := congrArg List.dropLast hsplit
      rw [List.dropLast_append_of_ne_nil hne, List.dropLast_append_of_ne_nil hend] at hshort
      exact absurd (hshort ▸ List.infix_append ..) h

/-! ## The table -/

namespace DnsTable

/-- The calls that change the table of names. -/
inductive Act where
  | addDns (hostname : Bytes) (ip : IP)
  | removeDns (hostname : Bytes)

/-- The table after a call. -/
def step (dnsMap : Map Bytes IP) : Act → Option (Map Bytes IP)
  | .addDns hostname ip => some (dnsMap.insert hostname ip)
  | .removeDns hostname => some (dnsMap.keepIf fun k _ => !(hostname == k))

/-- All sequences of `addDns` and `removeDns`. -/
def machine : Machine (Map Bytes IP) Act := { init := ∅, step := step }

/-- The table of the server is made by such a sequence. -/
theorem reach_of_hub {retentionTime : Int} {h : Hub} (hr : (Hub.machine retentionTime).Reach h) :
    machine.Reach h.dnsMap := by
  refine hr.invariant (P := fun h => machine.Reach h.dnsMap) ?_ ?_
  · exact Machine.ReachVia.init
  · intro h h' a hreach hs
    cases Hub.does_of_step hs with
    | @finish c hpump =>
      exact Machine.Reach.step
        (a := Act.addDns (h.conn c).client.hostname (h.conn c).client.virtualIp) hreach rfl
    | @assign c payload dnsMap hpump hout =>
      have hsame : (h.assign c payload dnsMap).dnsMap = h.dnsMap := by
        unfold Hub.assign
        split
        · rfl
        · rfl
      rw [hsame]
      exact hreach
    | @sweep now ids id hsweep hid =>
      show machine.Reach (h.sweepEntry now id).dnsMap
      unfold Hub.sweepEntry
      split
      · exact hreach
      · next oc _ =>
        split
        · have hreleased : (h.releaseIp oc.virtualIp).dnsMap = h.dnsMap := by
            cases oc.virtualIp with
            | none => rfl
            | some v => rfl
          show machine.Reach
            ((h.releaseIp oc.virtualIp).dnsMap.keepIf fun k _ => !(oc.hostname == k))
          rw [hreleased]
          exact Machine.Reach.step (a := Act.removeDns oc.hostname) hreach rfl
        · exact hreach
    | accept | cancel _ | quit _ | load _ _ | identify _ | addClient _ | disconnect _ _
    | retain _ _ | removeClient _ | tick _ | wake _ | lock _ | unlock _ => exact hreach

/-! ## Host names that can be found -/

/-- A host name that does not end in a dot, and behind which the domain is not found before
its place: it contains no `.et.` and does not end in `.et`. -/
def Plain (hostname : Bytes) : Prop :=
  hostname.getLast? ≠ some 0x2e ∧ ¬(domain ++ [0x2e]) <:+: hostname ++ domain

instance (hostname : Bytes) : Decidable (Plain hostname) :=
  inferInstanceAs (Decidable (_ ∧ ¬_))

/-- Only plain names are registered. -/
def PlainNames (_ : Map Bytes IP) : Act → Prop
  | .addDns hostname _ => Plain hostname
  | .removeDns _ => True

instance (dnsMap : Map Bytes IP) : (a : Act) → Decidable (PlainNames dnsMap a)
  | .addDns hostname _ => inferInstanceAs (Decidable (Plain hostname))
  | .removeDns _ => inferInstanceAs (Decidable True)

theorem plain_of_mem {dnsMap : Map Bytes IP} (hr : machine.ReachVia PlainNames dnsMap) :
    ∀ hostname ip, dnsMap.lookup hostname = some ip → Plain hostname := by
  refine hr.invariant
    (P := fun dnsMap => ∀ hostname ip, dnsMap.lookup hostname = some ip → Plain hostname) ?_ ?_
  · intro hostname ip h
    cases h
  · intro dnsMap dnsMap' a _ ih hok hs hostname ip hlookup
    cases a with
    | addDns name ip' =>
      cases hs
      by_cases hname : hostname = name
      · subst hname
        exact hok
      · exact ih hostname ip ((AList.lookup_insert_ne hname).symm.trans hlookup)
    | removeDns name =>
      cases hs
      rw [Map.lookup_keepIf, Option.filter_eq_some_iff] at hlookup
      exact ih hostname ip hlookup.1

end DnsTable

open DnsTable (Plain PlainNames)

/-! ## Lookup and registration -/

theorem getDns_eq_some {dnsMap : Map Bytes IP} {q : Bytes} {ip : ByteArr 4} :
    getDns dnsMap q domain = some ip ↔
      dnsMap.lookup (removeFirst (domain ++ [0x2e]) q) = some (some ip) := by
  unfold getDns
  cases dnsMap.lookup (removeFirst (domain ++ [0x2e]) q) with
  | none => exact iff_of_false nofun nofun
  | some found => exact Option.some_inj.symm

/-- **Lookup inverts registration**, in every table in which only plain names have been
registered: a query in absolute form gets an address exactly if it is the host name that is
registered with this address, with the domain behind it. -/
theorem getDns_eq_some_iff {dnsMap : Map Bytes IP}
    (hr : DnsTable.machine.ReachVia PlainNames dnsMap) {q : Bytes}
    (hq : q.getLast? = some 0x2e) (ip : ByteArr 4) :
    getDns dnsMap q domain = some ip ↔
      ∃ hostname, q = hostname ++ domain ++ [0x2e] ∧ dnsMap.lookup hostname = some (some ip) := by
  have hne : domain ++ [0x2e] ≠ [] := by decide
  rw [getDns_eq_some]
  constructor
  · intro hfound
    have hdot := (DnsTable.plain_of_mem hr _ _ hfound).1
    rcases removeFirst_cases hne q with ⟨-, hsame⟩ | ⟨before, behind, hsplit, hremoved⟩
    · -- nothing was deleted, and the query ends in a dot
      rw [hsame] at hdot
      exact absurd hq hdot
    · rw [hremoved] at hfound hdot
      by_cases hend : behind = []
      · subst hend
        rw [List.append_nil] at hfound hsplit
        refine ⟨before, ?_, hfound⟩
        rw [hsplit, List.append_assoc]
      · -- the dot at the end of the query is left
        rw [hsplit, List.getLast?_append_of_ne_nil _ hend] at hq
        rw [List.getLast?_append_of_ne_nil _ hend] at hdot
        exact absurd hq hdot
  · rintro ⟨hostname, rfl, hlookup⟩
    have hplain := (DnsTable.plain_of_mem hr _ _ hlookup).2
    rw [List.append_assoc, removeFirst_append hne hplain]
    exact hlookup

/-- The host name `pc` at 10.0.6.3 is found as `pc.et.`. -/
theorem getDns_eq_some_iff_pc :
    ∃ dnsMap, DnsTable.machine.ReachVia PlainNames dnsMap ∧
      getDns dnsMap [0x70, 0x63, 0x2e, 0x65, 0x74, 0x2e] domain = some (.four 10 0 6 3) := by
  obtain ⟨dnsMap, hr, hlookup⟩ : ∃ dnsMap, DnsTable.machine.ReachVia PlainNames dnsMap ∧
      dnsMap.lookup [0x70, 0x63] = some (some (.four 10 0 6 3)) :=
    Machine.exists_reachVia
      [.addDns [0x61] (some (.four 10 0 6 2)), .addDns [0x70, 0x63] (some (.four 10 0 6 3)),
        .removeDns [0x61]] (by decide)
  refine ⟨dnsMap, hr, (getDns_eq_some_iff hr (by decide) _).mpr ⟨[0x70, 0x63], by decide, hlookup⟩⟩

/-- **A registered name that is not found**: the host name `a.et.b`. The query `a.et.b.et.`
loses its first `.et.`, and `ab.et.` is looked up. -/
theorem getDns_misses :
    ∃ dnsMap, DnsTable.machine.Reach dnsMap ∧
      ∃ hostname q ip, q = hostname ++ domain ++ [0x2e] ∧ q.getLast? = some 0x2e ∧
        dnsMap.lookup hostname = some (some ip) ∧ getDns dnsMap q domain ≠ some ip := by
  obtain ⟨dnsMap, hr, hlookup, hget⟩ : ∃ dnsMap, DnsTable.machine.Reach dnsMap ∧
      (dnsMap.lookup [0x61, 0x2e, 0x65, 0x74, 0x2e, 0x62] = some (some (.four 10 0 6 3)) ∧
        getDns dnsMap ([0x61, 0x2e, 0x65, 0x74, 0x2e, 0x62] ++ domain ++ [0x2e]) domain = none) :=
    Machine.exists_reach
      [.addDns [0x61, 0x2e, 0x65, 0x74, 0x2e, 0x62] (some (.four 10 0 6 3))] (by decide)
  refine ⟨dnsMap, hr, _, _, _, rfl, by decide, hlookup, ?_⟩
  rw [hget]
  nofun

/-- **A query that finds a name it is not made of**: `pc.` and `p.et.c.` both find the host
name `pc.`, and neither is a host name with the domain behind it. -/
theorem getDns_mistakes :
    ∃ dnsMap, DnsTable.machine.Reach dnsMap ∧
      ∀ q ∈ [[0x70, 0x63, 0x2e], [0x70, 0x2e, 0x65, 0x74, 0x2e, 0x63, 0x2e]],
        q.getLast? = some 0x2e ∧ getDns dnsMap q domain = some (.four 10 0 6 3) ∧
          ¬∃ hostname, q = hostname ++ domain ++ [0x2e] := by
  obtain ⟨dnsMap, hr, hget⟩ : ∃ dnsMap, DnsTable.machine.Reach dnsMap ∧
      ∀ q ∈ [[0x70, 0x63, 0x2e], [0x70, 0x2e, 0x65, 0x74, 0x2e, 0x63, 0x2e]],
        q.getLast? = some 0x2e ∧ getDns dnsMap q domain = some (.four 10 0 6 3) ∧
          ¬(domain ++ [0x2e]) <:+ q :=
    Machine.exists_reach [.addDns [0x70, 0x63, 0x2e] (some (.four 10 0 6 3))] (by decide)
  refine ⟨dnsMap, hr, ?_⟩
  intro q hq
  obtain ⟨hdot, hfound, hsuffix⟩ := hget q hq
  refine ⟨hdot, hfound, ?_⟩
  rintro ⟨hostname, rfl⟩
  rw [List.append_assoc] at hsuffix
  exact hsuffix (List.suffix_append ..)

end EasyTun.Transport
