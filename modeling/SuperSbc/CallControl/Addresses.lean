import SuperSbc.CallControl.Authorize
import SuperSbc.Query.Selection
import SuperSbc.Text.Reading

/-!
Source addresses: which customer an address belongs to, and the key under
which the answer is cached. How Postgres reads the text of an address is a
parameter; a text it cannot read fails the query while it runs. Nobody asks the
rows for the error of such a query, so that it looks as if it found nothing.
-/

namespace SuperSbc.CallControl

open Query Text

variable {t : CustomerTables} {c : Customer}

inductive Family where
  | v4
  | v6
deriving DecidableEq

/-- A network by the bits it fixes; of a single address all bits are fixed. -/
structure Inet where
  family : Family
  bits : List Bool
deriving DecidableEq

/-- `net >>= address`. -/
def Inet.contains (net address : Inet) : Bool :=
  net.family = address.family && net.bits.isPrefixOf address.bits

inductive TransportKind where
  | udp
  | tcp
  | tls
  | any
deriving DecidableEq

def TransportKind.text : TransportKind → String
  | .udp => "udp"
  | .tcp => "tcp"
  | .tls => "tls"
  | .any => "any"

theorem TransportKind.text_injective {a b : TransportKind} (h : a.text = b.text) : a = b := by
  cases a <;> cases b <;> first | rfl | exact absurd h (by decide)

/-- A row of `customer_ips`. -/
structure CustomerIP where
  id : UUID
  customerId : UUID
  ipCidr : Inet
  port : Option ℤ
  transport : TransportKind
deriving DecidableEq

/-- The customers that are not deleted, and the addresses. -/
structure CustomerTables where
  customers : List Customer
  ips : List CustomerIP
  customers_unique : (customers.map (·.id)).Nodup

/-- Where a call comes from, the transport in lower case. -/
structure Origin where
  ip : String
  port : ℤ
  transport : String
deriving DecidableEq

structure IPMatch where
  customer : Customer
  ip : CustomerIP

/-- `ORDER BY masklen(ip_cidr) DESC, (port IS NOT NULL) DESC, (transport <> 'any') DESC`. -/
def IPMatch.byPrecision (m : IPMatch) : ℕᵒᵈ ×ₗ Boolᵒᵈ ×ₗ Boolᵒᵈ :=
  toLex (OrderDual.toDual m.ip.ipCidr.bits.length,
    toLex (OrderDual.toDual m.ip.port.isSome, OrderDual.toDual (decide (m.ip.transport ≠ .any))))

def CustomerTables.customerByID (t : CustomerTables) (id : UUID) : Option Customer :=
  t.customers.find? (·.id = id)

def CustomerTables.ipMatches (t : CustomerTables) (address : Inet) (q : Origin) : List IPMatch :=
  (t.ips.filter (fun i => i.ipCidr.contains address && (i.port = none || i.port = some q.port) &&
    (i.transport = .any || i.transport.text = transportOf q.transport))).flatMap
    (fun i => (t.customers.filter (·.id = i.customerId)).map (⟨·, i⟩))

def CustomerTables.customerByIP (inet : String → Option Inet) (t : CustomerTables) (q : Origin) :
    Except LookupError Customer :=
  match inet q.ip with
  | none => .error .notFound
  | some address =>
    match first IPMatch.byPrecision (t.ipMatches address q) with
    | none => .error .notFound
    | some m => .ok m.customer

/-- What becomes of a query: it runs, it is refused, or it breaks off before
its first row. -/
inductive QueryReply where
  | ran
  | refused
  | broken
deriving DecidableEq

/-- `CustomerByIP`, whatever becomes of its query. -/
def CustomerTables.askByIP (inet : String → Option Inet) (t : CustomerTables) (q : Origin) :
    QueryReply → Except LookupError Customer
  | .ran => t.customerByIP inet q
  | .refused => .error .failed
  | .broken => .error .notFound

/-- `DeleteCustomerIP`; `none` is `ErrNotFound`. -/
def CustomerTables.deleteCustomerIP (t : CustomerTables) (customerId ipId : UUID) :
    Option CustomerTables :=
  if t.ips.any (fun i => i.id = ipId && i.customerId = customerId) then
    some { t with ips := t.ips.filter (fun i => ¬ (i.id = ipId ∧ i.customerId = customerId)) }
  else none

/-- The decimal digits of a number, nothing for a negative one. The source has
room for twelve digits. -/
def itoa (n : ℤ) : String :=
  if n = 0 then "0" else if n < 0 then "" else Nat.repr n.toNat

def ipKey (q : Origin) : String := "ip:" ++ q.ip ++ ":" ++ q.transport ++ ":" ++ itoa q.port

/-- The key tells such origins apart. -/
def Origin.Plain (q : Origin) : Prop := ':' ∉ q.transport.toList ∧ 0 ≤ q.port

instance Origin.Plain.decidable (q : Origin) : Decidable q.Plain :=
  inferInstanceAs (Decidable (':' ∉ q.transport.toList ∧ 0 ≤ q.port))

theorem CustomerTables.mem_of_customerByID {id : UUID} (h : t.customerByID id = some c) :
    c ∈ t.customers ∧ c.id = id :=
  ⟨List.mem_of_find?_eq_some h, by simpa using List.find?_some h⟩

theorem CustomerTables.mem_of_customerByIP {inet : String → Option Inet} {q : Origin}
    (h : t.customerByIP inet q = .ok c) : c ∈ t.customers := by
  unfold CustomerTables.customerByIP at h
  split at h
  · cases h
  · split at h
    · cases h
    · rename_i m hfirst
      obtain rfl := Except.ok.inj h
      obtain ⟨i, -, hm⟩ := List.mem_flatMap.mp (mem_of_first hfirst)
      obtain ⟨c, hc, rfl⟩ := List.mem_map.mp hm
      exact List.mem_of_mem_filter hc

theorem CustomerTables.eq_of_id {d : Customer} (hc : c ∈ t.customers) (hd : d ∈ t.customers)
    (hid : c.id = d.id) : c = d :=
  List.inj_on_of_nodup_map t.customers_unique hc hd hid

theorem itoa_of_nonneg {n : ℤ} (h : 0 ≤ n) : itoa n = Nat.repr n.toNat := by
  unfold itoa
  split_ifs with hzero hneg
  · subst hzero
    rfl
  · omega
  · rfl

theorem colon_notMem_itoa {n : ℤ} (h : 0 ≤ n) : ':' ∉ (itoa n).toList := by
  rw [itoa_of_nonneg h]
  exact notMem_repr rfl _

theorem ipKey_injective {q q' : Origin} (hq : q.Plain) (hq' : q'.Plain) (h : ipKey q = ipKey q') :
    q = q' := by
  have hchars := congrArg String.toList h
  simp only [ipKey, String.toList_append, List.append_assoc] at hchars
  have hfront : (q.ip.toList ++ ':' :: q.transport.toList) ++ ':' :: (itoa q.port).toList =
      (q'.ip.toList ++ ':' :: q'.transport.toList) ++ ':' :: (itoa q'.port).toList := by
    simpa using hchars
  obtain ⟨hhost, hdigits⟩ :=
    append_separator_inj (colon_notMem_itoa hq.2) (colon_notMem_itoa hq'.2) hfront
  obtain ⟨hip, htransport⟩ := append_separator_inj hq.1 hq'.1 hhost
  have hport : q.port = q'.port := by
    rw [itoa_of_nonneg hq.2, itoa_of_nonneg hq'.2] at hdigits
    have hnat : q.port.toNat = q'.port.toNat := repr_inj (String.toList_inj.mp hdigits)
    have hnonneg := hq.2
    have hnonneg' := hq'.2
    omega
  cases q
  cases q'
  simp only [Origin.mk.injEq]
  exact ⟨String.toList_inj.mp hip, hport, String.toList_inj.mp htransport⟩

end SuperSbc.CallControl
