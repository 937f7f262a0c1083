import SuperSbc.Net.Address

/-!
The address the admin API takes a request to come from. Login bans and audit
records rest on it. A forwarded header is believed from the proxies in front
of the API only: it is read from its last element on, past elements that are
proxies themselves, up to the first that is not.

The proxy appends the address it saw, so everything before the last element is
the client's own text. Whether that text matters depends on the client's
address, since the walk does not stop at one inside a trusted network, and on
the proxy: of several field lines only the first is read.
-/

namespace SuperSbc.Admin

open Net Text

/-- The peer of the connection, and the field lines of the forwarded header. -/
structure Request where
  remoteAddr : String
  forwardedFor : List String

/-- `Header.Get`, which is empty when there is no line. -/
def Request.header (r : Request) : String := r.forwardedFor.headD ""

/-- The address the connection really came from. -/
def peerIP (r : Request) : String :=
  match splitHostPort r.remoteAddr.toList with
  | none => r.remoteAddr
  | some (host, _) => String.ofList host

def parseCIDRs (list : String) : List IPNet :=
  (list.toList.splitOn ',').filterMap (fun part =>
    let part := trimSpace part
    if part = [] then none
    else if '/' ∈ part then parseCIDR part
    else (parseIP part).map IPNet.single)

/-- The networks a forwarded header is believed from unless others are set. -/
def trustedProxyNets : List IPNet :=
  parseCIDRs "127.0.0.0/8,::1/128,10.0.0.0/8,172.16.0.0/12,192.168.0.0/16,fc00::/7"

def trustedProxy (nets : List IPNet) (addr : List Char) : Bool :=
  (parseIP addr).any (fun ip => nets.any (·.contains ip))

/-- The walk over the elements of the header, the last one first. -/
def forwardedIP (nets : List IPNet) (peer : String) : List (List Char) → String
  | [] => peer
  | part :: rest =>
    let v := trimSpace part
    if v = [] then forwardedIP nets peer rest
    else if parseIP v = none then peer
    else if trustedProxy nets v then forwardedIP nets peer rest
    else String.ofList v

def remoteIP (nets : List IPNet) (r : Request) : String :=
  let peer := peerIP r
  if trustedProxy nets peer.toList then
    forwardedIP nets peer (r.header.toList.splitOn ',').reverse
  else peer

/-- One element of a header that is an address. -/
structure Readable (element : String) : Prop where
  single : ',' ∉ element.toList
  parses : parseIP (trimSpace element.toList) ≠ none

/-- The lines a proxy can hand on that appends `own`: to nothing, or to whatever
the client sent. A proxy that joins makes one line of it, another adds a line. -/
inductive Appended (own : String) : Bool → List String → Prop where
  | alone (joins : Bool) : Appended own joins [own]
  | joined (sent : String) : Appended own true [sent ++ "," ++ own]
  | added (sent : List String) : Appended own false (sent ++ [own])

/-- The client's text has no say in the address its requests come from. -/
def ClientIndependent (nets : List IPNet) (remoteAddr : String) (joins : Bool) (own : String) :
    Prop :=
  ∀ lines lines', Appended own joins lines → Appended own joins lines' →
    remoteIP nets ⟨remoteAddr, lines⟩ = remoteIP nets ⟨remoteAddr, lines'⟩

section Walk

variable {nets : List IPNet} {peer own : String} {rest : List (List Char)}

theorem elements_after (sent : String) (hown : ',' ∉ own.toList) :
    ((sent ++ "," ++ own).toList.splitOn ',').reverse =
      own.toList :: (sent.toList.splitOn ',').reverse := by
  have htext : (sent ++ "," ++ own).toList = sent.toList ++ ',' :: own.toList := by
    simp [String.toList_append]
  rw [htext, List.splitOn_append_cons_self, List.splitOn_eq_singleton hown, List.reverse_append]
  rfl

theorem comma_not_mem_element {text element : List Char} (hmem : element ∈ text.splitOn ',') :
    ',' ∉ element := by
  induction text generalizing element with
  | nil =>
    rw [List.splitOn_nil, List.mem_singleton] at hmem
    simp [hmem]
  | cons c text ih =>
    rw [List.splitOn_cons_eq_if_modifyHead] at hmem
    split_ifs at hmem with hcomma
    · rcases List.mem_cons.mp hmem with rfl | hrest
      · simp
      · exact ih hrest
    · cases hsplit : text.splitOn ',' with
      | nil => exact absurd hsplit (List.splitOn_ne_nil _ _)
      | cons front others =>
        rw [hsplit, List.modifyHead_cons] at hmem
        rcases List.mem_cons.mp hmem with rfl | hrest
        · have hfront : ',' ∉ front := ih (by simp [hsplit])
          have hc : ',' ≠ c := fun hsame => hcomma (beq_iff_eq.mpr hsame.symm)
          exact List.not_mem_cons_of_ne_of_not_mem hc hfront
        · exact ih (by simp [hsplit, hrest])

theorem Readable.trim_ne_nil (hown : Readable own) : trimSpace own.toList ≠ [] := by
  intro hnil
  have hparses := hown.parses
  rw [hnil] at hparses
  exact hparses (by decide)

theorem forwardedIP_untrusted (hown : Readable own)
    (huntrusted : trustedProxy nets (trimSpace own.toList) = false) :
    forwardedIP nets peer (own.toList :: rest) = String.ofList (trimSpace own.toList) := by
  simp [forwardedIP, hown.trim_ne_nil, hown.parses, huntrusted]

theorem forwardedIP_trusted (hown : Readable own)
    (htrusted : trustedProxy nets (trimSpace own.toList) = true) :
    forwardedIP nets peer (own.toList :: rest) = forwardedIP nets peer rest := by
  simp [forwardedIP, hown.trim_ne_nil, hown.parses, htrusted]

theorem forwardedIP_all_trusted {elements : List (List Char)}
    (hall : ∀ element, Readable element → trustedProxy nets (trimSpace element.toList) = true)
    (hsingle : ∀ element ∈ elements, ',' ∉ element) : forwardedIP nets peer elements = peer := by
  induction elements with
  | nil => rfl
  | cons element rest ih =>
    have hrest := ih (fun other hother => hsingle other (List.mem_cons_of_mem _ hother))
    unfold forwardedIP
    dsimp only
    split_ifs with hnil hparses htrusted
    · exact hrest
    · rfl
    · exact hrest
    · have hreadable : Readable (String.ofList element) :=
        ⟨by simpa using hsingle element List.mem_cons_self, by simpa using hparses⟩
      have hproxy := hall _ hreadable
      rw [String.toList_ofList] at hproxy
      exact absurd hproxy htrusted

end Walk

/-- Through a trusted proxy, what the client sends before its own address
changes nothing exactly if the proxy makes one line of it and the address is
outside the trusted networks, or no address at all is outside them. -/
theorem remoteIP_client_independent_iff (nets : List IPNet) (remoteAddr : String) (joins : Bool)
    (own : String) (hpeer : trustedProxy nets (peerIP ⟨remoteAddr, []⟩).toList = true)
    (hown : Readable own) :
    ClientIndependent nets remoteAddr joins own ↔
      joins = true ∧ trustedProxy nets (trimSpace own.toList) = false ∨
        ∀ element, Readable element → trustedProxy nets (trimSpace element.toList) = true := by
  have hremote : ∀ (first : String) rest, remoteIP nets ⟨remoteAddr, first :: rest⟩ =
      forwardedIP nets (peerIP ⟨remoteAddr, []⟩) (first.toList.splitOn ',').reverse :=
    fun _ _ => if_pos hpeer
  -- an untrusted address is not the peer's
  have hother : ∀ element : String, trustedProxy nets (trimSpace element.toList) = false →
      peerIP ⟨remoteAddr, []⟩ ≠ String.ofList (trimSpace element.toList) := by
    intro element huntrusted hsame
    rw [hsame, String.toList_ofList, huntrusted] at hpeer
    cases hpeer
  have halone : trustedProxy nets (trimSpace own.toList) = true →
      remoteIP nets ⟨remoteAddr, [own]⟩ = peerIP ⟨remoteAddr, []⟩ := by
    intro htrusted
    rw [hremote, List.splitOn_eq_singleton hown.single, List.reverse_singleton,
      forwardedIP_trusted hown htrusted]
    rfl
  constructor
  · intro hindependent
    cases htrusted : trustedProxy nets (trimSpace own.toList) with
    | true =>
      refine .inr (fun element helement => ?_)
      by_contra huntrusted
      rw [Bool.not_eq_true] at huntrusted
      -- alone the own address leads to the peer, with another before it to that one
      have hsent : ∃ lines, Appended own joins lines ∧ remoteIP nets ⟨remoteAddr, lines⟩ =
          String.ofList (trimSpace element.toList) := by
        cases joins with
        | true =>
          refine ⟨_, .joined element, ?_⟩
          rw [hremote, elements_after _ hown.single, List.splitOn_eq_singleton helement.single,
            List.reverse_singleton, forwardedIP_trusted hown htrusted,
            forwardedIP_untrusted helement huntrusted]
        | false =>
          refine ⟨_, .added [element], ?_⟩
          rw [List.singleton_append, hremote, List.splitOn_eq_singleton helement.single,
            List.reverse_singleton, forwardedIP_untrusted helement huntrusted]
      obtain ⟨lines, happended, hread⟩ := hsent
      have hsame := hindependent [own] lines (.alone joins) happended
      rw [halone htrusted, hread] at hsame
      exact hother element huntrusted hsame
    | false =>
      cases joins with
      | true => exact .inl ⟨rfl, rfl⟩
      | false =>
        -- a first line that is no address leads to the peer
        have hsame := hindependent (["?"] ++ [own]) [own] (.added ["?"]) (.alone false)
        rw [List.singleton_append, hremote, hremote, List.splitOn_eq_singleton hown.single,
          List.reverse_singleton, forwardedIP_untrusted hown htrusted] at hsame
        exact absurd hsame (hother own htrusted)
  · rintro (⟨rfl, huntrusted⟩ | hall) lines lines' hlines hlines'
    · have hown' : ∀ l, Appended own true l →
          remoteIP nets ⟨remoteAddr, l⟩ = String.ofList (trimSpace own.toList) := by
        intro l happended
        cases happended with
        | alone =>
          rw [hremote, List.splitOn_eq_singleton hown.single, List.reverse_singleton]
          exact forwardedIP_untrusted hown huntrusted
        | joined sent =>
          rw [hremote, elements_after sent hown.single]
          exact forwardedIP_untrusted hown huntrusted
      rw [hown' lines hlines, hown' lines' hlines']
    · have hpeer' : ∀ l, remoteIP nets ⟨remoteAddr, l⟩ = peerIP ⟨remoteAddr, []⟩ := by
        intro l
        refine (if_pos hpeer).trans (forwardedIP_all_trusted hall (fun element helement => ?_))
        exact comma_not_mem_element (List.mem_reverse.mp helement)
      rw [hpeer', hpeer']

/-- A client on the internet behind the local proxy. -/
theorem remoteIP_client_independent_iff_public :
    ClientIndependent trustedProxyNets "127.0.0.1:40000" true " 203.0.113.9" :=
  (remoteIP_client_independent_iff trustedProxyNets "127.0.0.1:40000" true " 203.0.113.9"
    (by decide +kernel) ⟨by decide +kernel, by decide +kernel⟩).mpr
      (.inl ⟨rfl, by decide +kernel⟩)

/-- A client in the local network names any address it likes, and so does one
on the internet behind a proxy that adds a line. -/
theorem client_chooses_address :
    trustedProxy trustedProxyNets (peerIP ⟨"127.0.0.1:40000", []⟩).toList = true ∧
    Readable "192.168.1.50" ∧ Readable "203.0.113.9" ∧
    remoteIP trustedProxyNets ⟨"127.0.0.1:40000", ["198.51.100.1,192.168.1.50"]⟩ =
      "198.51.100.1" ∧
    remoteIP trustedProxyNets ⟨"127.0.0.1:40000", ["198.51.100.2,192.168.1.50"]⟩ =
      "198.51.100.2" ∧
    remoteIP trustedProxyNets ⟨"127.0.0.1:40000", ["198.51.100.1", "203.0.113.9"]⟩ =
      "198.51.100.1" := by
  refine ⟨by decide +kernel, ⟨by decide +kernel, by decide +kernel⟩,
    ⟨by decide +kernel, by decide +kernel⟩, ?_⟩
  decide +kernel

end SuperSbc.Admin
