import Mathlib.Data.List.AList
import Mathlib.Data.Set.Function
import SuperSbc.CallControl.Addresses
import SuperSbc.Text.Reading

/-!
The FreeSWITCH gateways that the carriers and their endpoints ask for. A
gateway file is kept by what it says: the parameters and variables of the
gateway, and in a comment the moment, the carrier and the endpoint it was
rendered from. All files of one rendering carry one moment. Carriers are those
that are not deleted.
-/

namespace SuperSbc.FsConfig

open CallControl Text

inductive CarrierStatus where
  | active
  | disabled
deriving DecidableEq

/-- The columns of a carrier that its gateways, and the dialling of them, are
made from. -/
structure GatewayCarrier where
  id : UUID
  name : String
  status : CarrierStatus
  rateGroupId : Option UUID
  gatewayHost : String
  gatewayPort : ℤ
  transport : TransportKind
  authUsername : Option String
  authPassword : Option String
  fromDomain : Option String
  register : Bool
  allowedCodecs : List String
  maxConcurrentCalls : ℤ
  sipOptionsPing : Bool
deriving DecidableEq

structure CarrierEndpoint where
  id : UUID
  carrierId : UUID
  seq : ℤ
  host : String
  port : ℤ
  transport : TransportKind
  priority : ℤ
  weight : ℤ
  enabled : Bool
deriving DecidableEq

/-- `name ~ '^[a-z0-9_-]+$'`. -/
def NameOK (name : String) : Prop :=
  name ≠ "" ∧ ∀ c ∈ name.toList, c.isLower ∨ c.isDigit ∨ c = '_' ∨ c = '-'

instance NameOK.decidable (name : String) : Decidable (NameOK name) :=
  letI : Decidable (∀ c ∈ name.toList, c.isLower ∨ c.isDigit ∨ c = '_' ∨ c = '-') :=
    List.decidableBAll _ _
  inferInstanceAs (Decidable (_ ∧ _))

/-- The carriers in the order they are listed in, and the endpoints. -/
structure CarrierTables where
  carriers : List GatewayCarrier
  endpoints : List CarrierEndpoint
  names_ok : ∀ c ∈ carriers, NameOK c.name
  names_unique : (carriers.map (·.name)).Nodup
  ids_unique : (carriers.map (·.id)).Nodup
  seqs_unique : (endpoints.map (fun e => (e.carrierId, e.seq))).Nodup

/-- `AllEndpoints`, at one carrier. -/
def CarrierTables.endpointsOf (t : CarrierTables) (id : UUID) : List CarrierEndpoint :=
  Query.orderBy (fun e : CarrierEndpoint => toLex (e.priority, e.seq))
    (t.endpoints.filter (·.carrierId = id))

def GatewayCarrier.gatewayName (c : GatewayCarrier) : String := c.name

def CarrierEndpoint.gatewayName (e : CarrierEndpoint) (carrier : String) (only : Bool) : String :=
  if only then carrier else carrier ++ "-ep" ++ toString e.seq

/-- What FreeSWITCH reads in a gateway file. -/
structure Gateway where
  name : String
  params : List (String × String)
  vars : List (String × String)
deriving DecidableEq

/-- A gateway file with its comment. -/
structure GatewayFile where
  renderedAt : ℤ
  carrierId : UUID
  seq : ℤ
  gateway : Gateway
deriving DecidableEq

/-- `net.JoinHostPort`. -/
def joinHostPort (host : String) (port : ℤ) : String :=
  if ':' ∈ host.toList then "[" ++ host ++ "]:" ++ toString port
  else host ++ ":" ++ toString port

/-- A column that is set, and not to the empty text. -/
def given (column : Option String) (default : String) : String :=
  match column with
  | none | some "" => default
  | some text => text

def endpointGatewayXML (now : Time) (nodeIP : String) (c : GatewayCarrier) (e : CarrierEndpoint)
    (only : Bool) : GatewayFile :=
  let overTCP : Bool := e.transport = .tcp || e.transport = .tls
  let proxy := joinHostPort e.host e.port
  { renderedAt := toSeconds now
    carrierId := c.id
    seq := e.seq
    gateway :=
      { name := e.gatewayName c.name only
        params :=
          [("proxy", if overTCP then proxy ++ ";transport=" ++ e.transport.text else proxy),
            ("register", toString c.register),
            ("username", given c.authUsername c.name),
            ("password", given c.authPassword "none"),
            ("from-domain", given c.fromDomain (if nodeIP ≠ "" then nodeIP else e.host)),
            ("realm", e.host)] ++
          (if overTCP then [("register-transport", e.transport.text)] else []) ++
          [("caller-id-in-from", "true"), ("extension-in-contact", "true"),
            ("retry-seconds", "30")] ++
          if c.sipOptionsPing then [("ping", "30"), ("ping-max", "2"), ("ping-min", "1")] else []
        vars :=
          [("sbc_carrier_name", c.name), ("sbc_endpoint", proxy)] ++
          if c.allowedCodecs = [] then []
          else [("sbc_carrier_codecs", ",".intercalate c.allowedCodecs)] } }

/-- The gateway columns of a carrier as an endpoint; ids that are not set are
zero. -/
def GatewayCarrier.primary (c : GatewayCarrier) (priority weight : ℤ) : CarrierEndpoint :=
  ⟨0, 0, 1, c.gatewayHost, c.gatewayPort, c.transport, priority, weight, true⟩

def gatewayXML (now : Time) (nodeIP : String) (c : GatewayCarrier) : GatewayFile :=
  endpointGatewayXML now nodeIP c (c.primary 0 0) true

abbrev Wanted := AList (fun _ : String => GatewayFile)

section Want

variable (now : Time) (nodeIP : String)

/-- The body of the loop of `RenderGateways` over the carriers. -/
def wantCarrier (eps : List CarrierEndpoint) (want : Wanted) (c : GatewayCarrier) : Wanted :=
  if c.status ≠ .active then want
  else if eps.length = 0 then want.insert c.gatewayName (gatewayXML now nodeIP c)
  else
    let only : Bool := eps.length = 1
    (eps.filter (·.enabled)).foldl (fun want e =>
      want.insert (e.gatewayName c.name only) (endpointGatewayXML now nodeIP c e only)) want

/-- What `RenderGateways` wants; a later file replaces an earlier one of the
same name. -/
def wantedGateways (t : CarrierTables) : Wanted :=
  t.carriers.foldl (fun want c => wantCarrier now nodeIP (t.endpointsOf c.id) want c) ∅

end Want

namespace CarrierTables

/-- The endpoints the router works with: the carrier's own, or its gateway
columns. -/
def dialled (t : CarrierTables) (c : GatewayCarrier) : List CarrierEndpoint :=
  if (t.endpointsOf c.id).length = 0 then [c.primary 1 100] else t.endpointsOf c.id

/-- The carrier has one endpoint, enabled or not. -/
def only (t : CarrierTables) (c : GatewayCarrier) : Bool := (t.dialled c).length = 1

/-- The active carriers with their enabled endpoints. -/
def gateways (t : CarrierTables) : List (GatewayCarrier × CarrierEndpoint) :=
  (t.carriers.filter (·.status = .active)).flatMap
    (fun c => ((t.dialled c).filter (·.enabled)).map (c, ·))

def gatewayOf (t : CarrierTables) (g : GatewayCarrier × CarrierEndpoint) : String :=
  g.2.gatewayName g.1.name (t.only g.1)

/-- A carrier with one endpoint has the name of another's endpoint. -/
def Clash (t : CarrierTables) : Prop :=
  ∃ g ∈ t.gateways, ∃ g' ∈ t.gateways, t.only g.1 = true ∧ t.only g'.1 = false ∧
    g.1.name = g'.1.name ++ "-ep" ++ toString g'.2.seq

instance Clash.decidable (t : CarrierTables) : Decidable t.Clash :=
  inferInstanceAs (Decidable (∃ g ∈ t.gateways, ∃ g' ∈ t.gateways, t.only g.1 = true ∧
    t.only g'.1 = false ∧ g.1.name = g'.1.name ++ "-ep" ++ toString g'.2.seq))

variable {t : CarrierTables} {c c' : GatewayCarrier} {e e' : CarrierEndpoint}

theorem mem_gateways {g : GatewayCarrier × CarrierEndpoint} :
    g ∈ t.gateways ↔ g.1 ∈ t.carriers ∧ g.1.status = .active ∧ g.2 ∈ t.dialled g.1 ∧
      g.2.enabled = true := by
  obtain ⟨c, e⟩ := g
  simp only [gateways, List.mem_flatMap, List.mem_filter, decide_eq_true_eq, List.mem_map,
    Prod.mk.injEq]
  constructor
  · rintro ⟨c, ⟨hc, hactive⟩, e, ⟨he, henabled⟩, rfl, rfl⟩
    exact ⟨hc, hactive, he, henabled⟩
  · rintro ⟨hc, hactive, he, henabled⟩
    exact ⟨c, ⟨hc, hactive⟩, e, ⟨he, henabled⟩, rfl, rfl⟩

theorem mem_endpointsOf {id : UUID} :
    e ∈ t.endpointsOf id ↔ e ∈ t.endpoints ∧ e.carrierId = id := by
  simp [endpointsOf, Query.mem_orderBy]

theorem eq_of_name (hc : c ∈ t.carriers) (hc' : c' ∈ t.carriers) (hname : c.name = c'.name) :
    c = c' :=
  List.inj_on_of_nodup_map t.names_unique hc hc' hname

theorem mem_endpointsOf_of_not_only (honly : t.only c = false) (he : e ∈ t.dialled c) :
    e ∈ t.endpointsOf c.id := by
  unfold only dialled at honly
  unfold dialled at he
  split_ifs at honly he
  · simp at honly
  · exact he

theorem eq_of_seq (honly : t.only c = false) (he : e ∈ t.dialled c) (he' : e' ∈ t.dialled c)
    (hseq : e.seq = e'.seq) : e = e' := by
  obtain ⟨hrow, hid⟩ := mem_endpointsOf.mp (mem_endpointsOf_of_not_only honly he)
  obtain ⟨hrow', hid'⟩ := mem_endpointsOf.mp (mem_endpointsOf_of_not_only honly he')
  exact List.inj_on_of_nodup_map t.seqs_unique hrow hrow'
    (Prod.ext (hid.trans hid'.symm) hseq)

theorem eq_of_only (honly : t.only c = true) (he : e ∈ t.dialled c) (he' : e' ∈ t.dialled c) :
    e = e' := by
  obtain ⟨single, hsingle⟩ := List.length_eq_one_iff.mp (of_decide_eq_true honly)
  rw [hsingle, List.mem_singleton] at he he'
  exact he.trans he'.symm

end CarrierTables

/-- A number has no `p`, so the last one of a name is that of `-ep`. -/
theorem suffixed_inj {name name' : String} {seq seq' : ℤ}
    (h : name ++ "-ep" ++ toString seq = name' ++ "-ep" ++ toString seq') :
    name = name' ∧ seq = seq' := by
  have hchars := congrArg String.toList h
  simp only [String.toList_append] at hchars
  have hcut : (name.toList ++ ['-', 'e']) ++ 'p' :: (toString seq).toList =
      (name'.toList ++ ['-', 'e']) ++ 'p' :: (toString seq').toList := by
    simpa using hchars
  have hdigits (n : ℤ) : 'p' ∉ (toString n).toList := notMem_toString rfl (by decide) n
  obtain ⟨hfront, hseq⟩ := append_separator_inj (hdigits seq) (hdigits seq') hcut
  exact ⟨String.toList_inj.mp (List.append_cancel_right hfront),
    decimal_inj (String.toList_inj.mp hseq)⟩

namespace CarrierTables

variable {t : CarrierTables}

/-- Names tell gateways apart exactly if no carrier is named like an endpoint
of another. -/
theorem gatewayOf_injOn_iff : Set.InjOn t.gatewayOf {g | g ∈ t.gateways} ↔ ¬ t.Clash := by
  constructor
  · rintro hinj ⟨g, hg, g', hg', honly, hseveral, hname⟩
    have hsame : g = g' := by
      apply hinj hg hg'
      simp only [gatewayOf, CarrierEndpoint.gatewayName, honly, hseveral, if_true,
        Bool.false_eq_true, if_false, hname]
    rw [hsame, hseveral] at honly
    cases honly
  · rintro hclash ⟨c, e⟩ hg ⟨c', e'⟩ hg' hname
    obtain ⟨hc, -, he, -⟩ : c ∈ t.carriers ∧ _ ∧ e ∈ t.dialled c ∧ _ := mem_gateways.mp hg
    obtain ⟨hc', -, he', -⟩ : c' ∈ t.carriers ∧ _ ∧ e' ∈ t.dialled c' ∧ _ := mem_gateways.mp hg'
    simp only [gatewayOf, CarrierEndpoint.gatewayName] at hname
    cases honly : t.only c <;> cases honly' : t.only c' <;>
      simp only [honly, honly', if_true, if_false, Bool.false_eq_true] at hname
    · obtain ⟨hcarrier, hseq⟩ := suffixed_inj hname
      obtain rfl := eq_of_name hc hc' hcarrier
      rw [eq_of_seq honly he he' hseq]
    · exact absurd ⟨_, hg', _, hg, honly', honly, hname.symm⟩ hclash
    · exact absurd ⟨_, hg, _, hg', honly, honly', hname⟩ hclash
    · obtain rfl := eq_of_name hc hc' hname
      rw [eq_of_only honly he he']

end CarrierTables

section Lookup

variable {now : Time} {nodeIP : String} {t : CarrierTables}

theorem gatewayXML_eq (c : GatewayCarrier) (priority weight : ℤ) :
    gatewayXML now nodeIP c = endpointGatewayXML now nodeIP c (c.primary priority weight) true :=
  rfl

/-- Files stored under names that tell them apart stay as they are. -/
theorem lookup_foldl_insert {α : Type} (key : α → String) (file : α → GatewayFile) {l : List α}
    {want : Wanted} {a : α} (hinj : ∀ b ∈ l, key b = key a → b = a)
    (hmem : a ∈ l ∨ want.lookup (key a) = some (file a)) :
    (l.foldl (fun want b => want.insert (key b) (file b)) want).lookup (key a) = some (file a) := by
  induction l generalizing want with
  | nil => exact hmem.resolve_left List.not_mem_nil
  | cons b l ih =>
    refine ih (fun b hb => hinj b (List.mem_cons_of_mem _ hb)) ?_
    by_cases hkey : key b = key a
    · have hsame := hinj b List.mem_cons_self hkey
      subst hsame
      exact .inr (AList.lookup_insert _)
    · rcases hmem with hmem | hlookup
      · rcases List.mem_cons.mp hmem with rfl | hrest
        · exact absurd rfl hkey
        · exact .inl hrest
      · rw [AList.lookup_insert_ne (Ne.symm hkey)]
        exact .inr hlookup

/-- The wanted files are those of the gateways, stored one after the other. -/
theorem wantedGateways_eq :
    wantedGateways now nodeIP t = t.gateways.foldl (fun want g =>
      want.insert (t.gatewayOf g) (endpointGatewayXML now nodeIP g.1 g.2 (t.only g.1))) ∅ := by
  have hcarrier (c : GatewayCarrier) (want : Wanted) (hactive : c.status = .active) :
      wantCarrier now nodeIP (t.endpointsOf c.id) want c =
        (((t.dialled c).filter (·.enabled)).map (c, ·)).foldl (fun want g =>
          want.insert (t.gatewayOf g) (endpointGatewayXML now nodeIP g.1 g.2 (t.only g.1)))
          want := by
    unfold wantCarrier
    rw [if_neg (not_not.mpr hactive)]
    split_ifs with hnone
    · have hdialled : t.dialled c = [c.primary 1 100] := if_pos hnone
      have honly : t.only c = true := by simp [CarrierTables.only, hdialled]
      have henabled : (c.primary 1 100).enabled = true := rfl
      simp [hdialled, henabled, CarrierTables.gatewayOf, honly, CarrierEndpoint.gatewayName,
        GatewayCarrier.gatewayName, gatewayXML_eq c 1 100]
    · have hdialled : t.dialled c = t.endpointsOf c.id := if_neg hnone
      simp [hdialled, CarrierTables.only, CarrierTables.gatewayOf, List.foldl_map]
  unfold wantedGateways CarrierTables.gateways
  generalize (∅ : Wanted) = want
  induction t.carriers generalizing want with
  | nil => rfl
  | cons c rest ih =>
    rw [List.foldl_cons, ih, List.filter_cons]
    split_ifs with hactive
    · rw [List.flatMap_cons, List.foldl_append, hcarrier c want (of_decide_eq_true hactive)]
    · rw [wantCarrier, if_pos (by simpa using hactive)]

/-- Without a clash, the file under a gateway's name is rendered from its
carrier and endpoint. -/
theorem lookup_wantedGateways (hclash : ¬ t.Clash) {g : GatewayCarrier × CarrierEndpoint}
    (hg : g ∈ t.gateways) :
    (wantedGateways now nodeIP t).lookup (t.gatewayOf g) =
      some (endpointGatewayXML now nodeIP g.1 g.2 (t.only g.1)) := by
  rw [wantedGateways_eq]
  refine lookup_foldl_insert t.gatewayOf
    (fun g => endpointGatewayXML now nodeIP g.1 g.2 (t.only g.1)) ?_ (.inl hg)
  intro other hother hname
  exact CarrierTables.gatewayOf_injOn_iff.mpr hclash hother hg hname

end Lookup

end SuperSbc.FsConfig
