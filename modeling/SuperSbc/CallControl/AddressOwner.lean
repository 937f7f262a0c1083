import SuperSbc.CallControl.Addresses
import SuperSbc.CallControl.Exits

/-!
An address belongs to one customer. The networks that contain an address are
prefixes of its bits, so those of one length are one network; with the unique
constraint on network, port and transport no two matching rows are equally
precise. The lookup then has one row to choose, whose network lies within the
networks of all other matching rows.
-/

namespace SuperSbc.CallControl

open Query

/-- `UNIQUE NULLS NOT DISTINCT (ip_cidr, port, transport)`. -/
def CustomerTables.AddressesUnique (t : CustomerTables) : Prop :=
  (t.ips.map (fun i => (i.ipCidr, i.port, i.transport))).Nodup

instance CustomerTables.AddressesUnique.decidable (t : CustomerTables) :
    Decidable t.AddressesUnique :=
  inferInstanceAs (Decidable (t.ips.map (fun i => (i.ipCidr, i.port, i.transport))).Nodup)

/-- A matching row than which no other is more precise. -/
structure CustomerTables.Owns (t : CustomerTables) (address : Inet) (q : Origin) (m : IPMatch) :
    Prop where
  matching : m ∈ t.ipMatches address q
  precise : ∀ n ∈ t.ipMatches address q, m.byPrecision ≤ n.byPrecision

variable {t other : CustomerTables} {address : Inet} {q : Origin} {m n : IPMatch}

/-- The columns the `WHERE` clause looks at. -/
structure CustomerIP.Matches (i : CustomerIP) (address : Inet) (q : Origin) : Prop where
  family : i.ipCidr.family = address.family
  network : i.ipCidr.bits <+: address.bits
  port : i.port = none ∨ i.port = some q.port
  transport : i.transport = .any ∨ i.transport.text = transportOf q.transport

theorem mem_ipMatches : m ∈ t.ipMatches address q ↔
    m.ip ∈ t.ips ∧ m.ip.Matches address q ∧ m.customer ∈ t.customers ∧
      m.customer.id = m.ip.customerId := by
  simp only [CustomerTables.ipMatches, List.mem_flatMap, List.mem_filter, List.mem_map,
    Bool.and_eq_true, Bool.or_eq_true, decide_eq_true_eq, Inet.contains,
    List.isPrefixOf_iff_prefix]
  constructor
  · rintro ⟨i, ⟨hrow, ⟨⟨hfamily, hbits⟩, hport⟩, htransport⟩, c, ⟨hc, hid⟩, rfl⟩
    exact ⟨hrow, ⟨hfamily, hbits, hport, htransport⟩, hc, hid⟩
  · rintro ⟨hrow, hmatches, hc, hid⟩
    exact ⟨m.ip, ⟨hrow, ⟨⟨hmatches.family, hmatches.network⟩, hmatches.port⟩,
      hmatches.transport⟩, m.customer, ⟨hc, hid⟩, rfl⟩

/-- Matching rows of one precision agree in every constrained column. -/
theorem CustomerIP.Matches.same {i j : CustomerIP} (hi : i.Matches address q)
    (hj : j.Matches address q) (hlength : i.ipCidr.bits.length = j.ipCidr.bits.length)
    (hport : i.port.isSome = j.port.isSome) (htransport : i.transport ≠ .any ↔ j.transport ≠ .any) :
    (i.ipCidr, i.port, i.transport) = (j.ipCidr, j.port, j.transport) := by
  have hnetwork : i.ipCidr = j.ipCidr := by
    have hbits := List.prefix_of_prefix_length_le hi.network hj.network hlength.le
    have hfamily := hi.family.trans hj.family.symm
    cases hi' : i.ipCidr
    cases hj' : j.ipCidr
    simp only [hi', hj'] at hbits hlength hfamily
    rw [hfamily, hbits.eq_of_length hlength]
  have hports : i.port = j.port := by
    rcases hi.port with hnone | hsome
    · rw [hnone] at hport ⊢
      exact (Option.not_isSome_iff_eq_none.mp (by simp [← hport])).symm
    · rcases hj.port with hnone | hsame
      · simp [hsome, hnone] at hport
      · rw [hsome, hsame]
  have htransports : i.transport = j.transport := by
    rcases hi.transport with hany | htext
    · rw [hany]
      by_contra hother
      exact htransport.mpr (fun h => hother h.symm) hany
    · rcases hj.transport with hany | hsame
      · rw [hany]
        by_contra hother
        exact htransport.mp hother hany
      · exact TransportKind.text_injective (htext.trans hsame.symm)
  rw [hnetwork, hports, htransports]

/-- With the constraint the order of the query tells matching rows apart. -/
theorem eq_of_byPrecision (hunique : t.AddressesUnique) (hm : m ∈ t.ipMatches address q)
    (hn : n ∈ t.ipMatches address q) (hsame : m.byPrecision = n.byPrecision) : m = n := by
  obtain ⟨hrow, hmatches, hc, hid⟩ := mem_ipMatches.mp hm
  obtain ⟨hrow', hmatches', hc', hid'⟩ := mem_ipMatches.mp hn
  obtain ⟨hlength, hport, htransport⟩ : m.ip.ipCidr.bits.length = n.ip.ipCidr.bits.length ∧
      m.ip.port.isSome = n.ip.port.isSome ∧
      decide (m.ip.transport ≠ .any) = decide (n.ip.transport ≠ .any) := by
    simpa [IPMatch.byPrecision] using hsame
  have hip : m.ip = n.ip := List.inj_on_of_nodup_map hunique hrow hrow'
    (hmatches.same hmatches' hlength hport (decide_eq_decide.mp htransport))
  have hcustomer : m.customer = n.customer :=
    CustomerTables.eq_of_id hc hc' (by rw [hid, hid', hip])
  cases m
  cases n
  simp_all

/-- The network of the chosen row lies within that of every other match. -/
theorem CustomerTables.Owns.contained (howns : t.Owns address q m)
    (hn : n ∈ t.ipMatches address q) : n.ip.ipCidr.contains m.ip.ipCidr = true := by
  obtain ⟨-, hmatches, -, -⟩ := mem_ipMatches.mp howns.matching
  obtain ⟨-, hmatches', -, -⟩ := mem_ipMatches.mp hn
  have hlength : n.ip.ipCidr.bits.length ≤ m.ip.ipCidr.bits.length := by
    rcases Prod.Lex.le_iff.mp (howns.precise n hn) with hlt | ⟨heq, -⟩
    · exact (OrderDual.toDual_lt_toDual.mp hlt).le
    · exact (OrderDual.toDual_inj.mp heq).ge
  have hbits := List.prefix_of_prefix_length_le hmatches'.network hmatches.network hlength
  rw [Inet.contains, Bool.and_eq_true]
  exact ⟨decide_eq_true (hmatches'.family.trans hmatches.family.symm),
    List.isPrefixOf_iff_prefix.mpr hbits⟩

theorem CustomerTables.Owns.unique (hunique : t.AddressesUnique) (hm : t.Owns address q m)
    (hn : t.Owns address q n) : m = n :=
  eq_of_byPrecision hunique hm.matching hn.matching
    (le_antisymm (hm.precise n hn.matching) (hn.precise m hm.matching))

/-- The lookup returns the customer of the row that owns the address. -/
theorem customerByIP_ok_iff {inet : String → Option Inet} {c : Customer}
    (hunique : t.AddressesUnique) (haddress : inet q.ip = some address) :
    t.customerByIP inet q = .ok c ↔ ∃ m, t.Owns address q m ∧ m.customer = c := by
  rw [CustomerTables.customerByIP, haddress]
  simp only
  cases hfirst : first IPMatch.byPrecision (t.ipMatches address q) with
  | none =>
    refine ⟨fun h => (by cases h), ?_⟩
    rintro ⟨m, howns, -⟩
    have hmatching := howns.matching
    rw [first_eq_none.mp hfirst] at hmatching
    exact absurd hmatching List.not_mem_nil
  | some n =>
    have hn : t.Owns address q n := ⟨mem_of_first hfirst, fun _ hm => first_le hfirst hm⟩
    constructor
    · intro h
      exact ⟨n, hn, Except.ok.inj h⟩
    · rintro ⟨m, howns, rfl⟩
      rw [howns.unique hunique hn]

theorem mem_ipMatches_perm (address : Inet) (q : Origin) (hips : other.ips.Perm t.ips)
    (hcustomers : other.customers.Perm t.customers) (m : IPMatch) :
    m ∈ t.ipMatches address q ↔ m ∈ other.ipMatches address q := by
  rw [mem_ipMatches, mem_ipMatches, hips.mem_iff, hcustomers.mem_iff]

/-- An address has at most one owning row, whose network lies within those of
all other matches. A lookup returns its customer, in whatever order the rows
are stored. -/
theorem address_has_one_owner (inet : String → Option Inet) (t : CustomerTables)
    (hunique : t.AddressesUnique) (q : Origin) :
    (∀ address m n, t.Owns address q m → t.Owns address q n → m = n) ∧
      (∀ address m, t.Owns address q m → ∀ n ∈ t.ipMatches address q,
        n.ip.ipCidr.contains m.ip.ipCidr = true) ∧
      (∀ address c, inet q.ip = some address →
        (t.customerByIP inet q = .ok c ↔ ∃ m, t.Owns address q m ∧ m.customer = c)) ∧
      ∀ other : CustomerTables, other.ips.Perm t.ips → other.customers.Perm t.customers →
        other.customerByIP inet q = t.customerByIP inet q := by
  refine ⟨?_, ?_, ?_, ?_⟩
  · intro address m n hm hn
    exact hm.unique hunique hn
  · intro address m hm n hn
    exact hm.contained hn
  · intro address c haddress
    exact customerByIP_ok_iff hunique haddress
  · intro other hips hcustomers
    unfold CustomerTables.customerByIP
    cases inet q.ip with
    | none => rfl
    | some address =>
      have hfirst := first_congr (mem_ipMatches_perm address q hips hcustomers)
        (fun m hm n hn => eq_of_byPrecision hunique hm hn)
      simp only [hfirst]

def sampleNetwork (length : ℕ) : Inet :=
  ⟨.v4, ([false, false, false, false, true, false, true] ++ List.replicate 25 false).take length⟩

/-- A network of one customer within that of another, and a port of it that is
the first one's again. -/
def sampleOverlap : CustomerTables where
  customers := [sampleCustomer, { sampleCustomer with id := 8 }]
  ips := [⟨31, 7, sampleNetwork 8, none, .any⟩, ⟨32, 8, sampleNetwork 24, none, .udp⟩,
    ⟨33, 7, sampleNetwork 24, some 5070, .any⟩]
  customers_unique := by decide

theorem address_has_one_owner_sampleOverlap :
    sampleOverlap.AddressesUnique ∧
      ∀ other : CustomerTables, other.ips.Perm sampleOverlap.ips →
        other.customers.Perm sampleOverlap.customers →
        ((other.customerByIP (fun _ => some (sampleNetwork 32))
          ⟨"10.0.0.0", 5060, "udp"⟩).toOption.map (·.id) = some 8) ∧
        (other.customerByIP (fun _ => some (sampleNetwork 32))
          ⟨"10.0.0.0", 5070, "udp"⟩).toOption.map (·.id) = some 7 := by
  have hunique : sampleOverlap.AddressesUnique := by decide
  refine ⟨hunique, fun other hips hcustomers => ⟨?_, ?_⟩⟩
  · rw [(address_has_one_owner _ sampleOverlap hunique _).2.2.2 other hips hcustomers]
    decide +kernel
  · rw [(address_has_one_owner _ sampleOverlap hunique _).2.2.2 other hips hcustomers]
    decide +kernel

end SuperSbc.CallControl
