import TurboMcp.Lib.IpAddr
import TurboMcp.Lib.Lines
import TurboMcp.Lib.Text
import TurboMcp.Transport.Headers

/-!
# The address of a request

A request without an authenticated subject is charged to an address.  Behind a
trusted proxy it is taken from `X-Forwarded-For`, which proxies write on the
right and clients may fill in on the left.  The code walks the first header line
from its right end and leaves out what is no address; what it then finds may
stand to the left of the last entry that no trusted proxy wrote.
-/

namespace TurboMcp.Transport

open TurboMcp.Lib

/-! ## The extractor -/

structure PeerIp where
  socket : Option IpAddr
  forwarded : Option String

namespace PeerIp

/-- `str::trim`, then `str::parse`. -/
def parseHop (hop : List Char) : Option IpAddr := IpAddr.parse (trim isWhitespace hop)

/-- The addresses of a forwarding chain, from the left; other entries are left out. -/
def hops (forwarded : Option String) : List IpAddr :=
  ((forwarded.getD "").toList.splitOn ',').filterMap parseHop

/-- The rightmost address that is not trusted, else the leftmost, else the socket's. -/
def chosen (trusted : List IpAddr) (socket : IpAddr) (hops : List IpAddr) : Option IpAddr :=
  ((hops.reverse.find? fun ip => !trusted.contains ip).or hops.head?).or (some socket)

def clientIp (peer : PeerIp) (trusted : List IpAddr) : Option IpAddr :=
  match peer.socket with
  | none => none
  | some socket =>
      if trusted.isEmpty || !trusted.contains socket then some socket
      else chosen trusted socket (hops peer.forwarded)

/-- The socket's address, if the transport knows it, and the first line of the header. -/
def fromRequestParts (connectInfo : Option IpAddr) (headers : HeaderMap) : PeerIp where
  socket := connectInfo
  forwarded := (headers.get "x-forwarded-for").bind HeaderValue.toStr

end PeerIp

/-! ## The whole chain -/

abbrev Entry := List UInt8

/-- The entries of all header lines, from the left. -/
def entries (headers : HeaderMap) : List Entry :=
  (headers.values "x-forwarded-for").flatMap fun line => line.bytes.splitOn 44

/-- The address an entry is, if it is one. -/
def address (e : Entry) : Option IpAddr :=
  (HeaderValue.toStr ⟨e⟩).bind fun s => PeerIp.parseHop s.toList

def isTrusted (trusted : List IpAddr) (e : Entry) : Bool := (address e).any trusted.contains

/-- The last entry that is not a trusted proxy's, and what stands to its right; the whole
chain, if all are. -/
def decisive (trusted : List IpAddr) : List Entry → List Entry
  | [] => []
  | e :: es => if es.all (isTrusted trusted) then e :: es else decisive trusted es

/-- The address a request is charged to. -/
def charged (trusted : List IpAddr) (socket : IpAddr) (headers : HeaderMap) : Option IpAddr :=
  (PeerIp.fromRequestParts (some socket) headers).clientIp trusted

/-- Among some requests, those that agree on the decisive entries are charged alike. -/
def Unspoofable (among : HeaderMap → Prop) (trusted : List IpAddr) (socket : IpAddr)
    (headers : HeaderMap) : Prop :=
  ∀ headers', among headers' →
    decisive trusted (entries headers') = decisive trusted (entries headers) →
      charged trusted socket headers' = charged trusted socket headers

/-- The header is one line, of visible text. -/
def OneLine (headers : HeaderMap) : Prop :=
  ∃ line, headers.values "x-forwarded-for" = [line] ∧ line.bytes.all HeaderValue.isVisible = true

/-! ## What is decisive -/

theorem decisive_cons_of_trusted {trusted : List IpAddr} {e : Entry} {right : List Entry}
    (h : ∀ x ∈ right, isTrusted trusted x = true) : decisive trusted (e :: right) = e :: right := by
  unfold decisive
  rw [if_pos (List.all_eq_true.mpr h)]

theorem decisive_append {trusted : List IpAddr} {e : Entry} {right : List Entry}
    (he : isTrusted trusted e = false) (left : List Entry) :
    decisive trusted (left ++ e :: right) = decisive trusted (e :: right) := by
  induction left with
  | nil => rfl
  | cons x left ih =>
      have hnot : ¬ (left ++ e :: right).all (isTrusted trusted) = true := by
        intro hall
        have htrusted := List.all_eq_true.mp hall e (by simp)
        rw [he] at htrusted
        cases htrusted
      rw [List.cons_append, decisive, if_neg hnot, ih]

theorem decisive_of_trusted {trusted : List IpAddr} {es : List Entry}
    (h : ∀ e ∈ es, isTrusted trusted e = true) : decisive trusted es = es := by
  cases es with
  | nil => rfl
  | cons e es => exact decisive_cons_of_trusted fun x hx => h x (List.mem_cons_of_mem _ hx)

/-- All entries are trusted, or the last that is not stands at the head of what is decisive. -/
theorem decisive_spec (trusted : List IpAddr) (es : List Entry) :
    (∀ e ∈ es, isTrusted trusted e = true) ∨
      ∃ left e right, es = left ++ e :: right ∧ isTrusted trusted e = false ∧
        (∀ x ∈ right, isTrusted trusted x = true) ∧ decisive trusted es = e :: right := by
  induction es with
  | nil => exact .inl fun e he => absurd he List.not_mem_nil
  | cons x es ih =>
      rcases ih with hall | ⟨left, e, right, rfl, he, hright, hdecisive⟩
      · cases hx : isTrusted trusted x with
        | true =>
            left
            intro e he
            rcases List.mem_cons.mp he with rfl | he
            · exact hx
            · exact hall e he
        | false => exact .inr ⟨[], x, es, rfl, hx, hall, decisive_cons_of_trusted hall⟩
      · right
        refine ⟨x :: left, e, right, rfl, he, hright, ?_⟩
        rw [← List.cons_append, decisive_append he, decisive_cons_of_trusted hright]

/-! ## What the code reads -/

/-- The byte of a character, as the header shows it. -/
abbrev charOf (b : UInt8) : Char := Char.ofNat b.toNat

theorem charOf_injective : Function.Injective charOf := by
  intro b b' h
  have hnat := congrArg Char.toNat h
  rw [HeaderValue.toNat_charOfByte, HeaderValue.toNat_charOfByte] at hnat
  exact UInt8.toNat_inj.mp hnat

theorem toStr_of_visible {bytes : List UInt8} (h : ∀ b ∈ bytes, HeaderValue.isVisible b = true) :
    HeaderValue.toStr ⟨bytes⟩ = some (String.ofList (bytes.map charOf)) := by
  unfold HeaderValue.toStr
  rw [if_pos (List.all_eq_true.mpr h)]

theorem address_of_visible {e : Entry} (h : ∀ b ∈ e, HeaderValue.isVisible b = true) :
    address e = PeerIp.parseHop (e.map charOf) := by
  unfold address
  rw [toStr_of_visible h, Option.bind_some, String.toList_ofList]

theorem visible_of_address {e : Entry} (h : (address e).isSome = true) :
    ∀ b ∈ e, HeaderValue.isVisible b = true := by
  intro b hb
  unfold address HeaderValue.toStr at h
  split at h
  · rename_i hall
    exact List.all_eq_true.mp hall b hb
  · cases h

theorem address_of_trusted {trusted : List IpAddr} {e : Entry} (h : isTrusted trusted e = true) :
    ∃ ip ∈ trusted, address e = some ip := by
  unfold isTrusted at h
  rcases haddress : address e with _ | ip
  · rw [haddress] at h
    cases h
  · rw [haddress, Option.any_some] at h
    exact ⟨ip, List.contains_iff_mem.mp h, rfl⟩

/-- A visible line is read entry by entry. -/
theorem hops_of_visible {bytes : List UInt8} (h : ∀ b ∈ bytes, HeaderValue.isVisible b = true) :
    PeerIp.hops (HeaderValue.toStr ⟨bytes⟩) = (bytes.splitOn 44).filterMap address := by
  unfold PeerIp.hops
  rw [toStr_of_visible h, Option.getD_some, String.toList_ofList,
    show ',' = charOf 44 from rfl, splitOn_map charOf_injective, List.filterMap_map]
  refine List.filterMap_congr ?_
  intro e he
  exact (address_of_visible fun b hb => h b (mem_of_mem_splitOn he b hb).1).symm

theorem charged_eq {trusted : List IpAddr} {socket : IpAddr} (h : socket ∈ trusted)
    (headers : HeaderMap) :
    charged trusted socket headers = PeerIp.chosen trusted socket
      (PeerIp.hops ((headers.get "x-forwarded-for").bind HeaderValue.toStr)) := by
  have hguard : ¬ (trusted.isEmpty || !trusted.contains socket) = true := by
    rw [Bool.or_eq_true, List.isEmpty_iff, Bool.not_eq_true', not_or]
    refine ⟨List.ne_nil_of_mem h, ?_⟩
    rw [List.contains_iff_mem.mpr h]
    exact Bool.noConfusion
  unfold charged PeerIp.clientIp PeerIp.fromRequestParts
  simp only
  rw [if_neg hguard]

/-! ## The walk -/

section

variable {trusted : List IpAddr} {socket : IpAddr}

theorem addresses_trusted {es : List Entry} (h : ∀ e ∈ es, isTrusted trusted e = true) :
    ∀ ip ∈ es.filterMap address, ip ∈ trusted := by
  intro ip hip
  obtain ⟨e, he, haddress⟩ := List.mem_filterMap.mp hip
  obtain ⟨ip', htrusted, haddress'⟩ := address_of_trusted (h e he)
  rw [haddress, Option.some.injEq] at haddress'
  rwa [haddress']

theorem find_none {right : List IpAddr} (h : ∀ ip ∈ right, ip ∈ trusted) :
    (right.reverse.find? fun ip => !trusted.contains ip) = none := by
  rw [List.find?_eq_none]
  intro ip hip
  have hmem := h ip (List.mem_reverse.mp hip)
  rw [List.contains_iff_mem.mpr hmem]
  exact Bool.noConfusion

/-- The walk stops at an address that is not trusted. -/
theorem chosen_append {ip : IpAddr} {right : List IpAddr} (hip : ip ∉ trusted)
    (hright : ∀ ip ∈ right, ip ∈ trusted) (left : List IpAddr) :
    PeerIp.chosen trusted socket (left ++ ip :: right) = some ip := by
  have hcontains : trusted.contains ip = false := by
    rw [← Bool.not_eq_true, List.contains_iff_mem]
    exact hip
  unfold PeerIp.chosen
  rw [List.reverse_append, List.reverse_cons, List.find?_append, List.find?_append,
    find_none hright, Option.none_or, List.find?_cons_of_pos (by rw [hcontains]; rfl)]
  rfl

/-- Where nothing to the right of the leftmost address stops it, the leftmost is taken. -/
theorem chosen_cons {ip : IpAddr} {right : List IpAddr} (hright : ∀ ip ∈ right, ip ∈ trusted) :
    PeerIp.chosen trusted socket (ip :: right) = some ip := by
  by_cases hip : ip ∈ trusted
  · have hall : ∀ x ∈ ip :: right, x ∈ trusted := by
      intro x hx
      rcases List.mem_cons.mp hx with rfl | hx
      · exact hip
      · exact hright x hx
    unfold PeerIp.chosen
    rw [find_none hall]
    rfl
  · exact chosen_append hip hright []

/-- Where the decisive entries are addresses, the walk does not leave them. -/
theorem chosen_decisive {es : List Entry}
    (h : ∀ e ∈ decisive trusted es, (address e).isSome = true) :
    PeerIp.chosen trusted socket (es.filterMap address) =
      PeerIp.chosen trusted socket ((decisive trusted es).filterMap address) := by
  rcases decisive_spec trusted es with hall | ⟨left, e, right, rfl, he, hright, hdecisive⟩
  · rw [decisive_of_trusted hall]
  · rw [hdecisive] at h ⊢
    obtain ⟨ip, haddress⟩ := Option.isSome_iff_exists.mp (h e List.mem_cons_self)
    have hip : ip ∉ trusted := by
      intro hmem
      unfold isTrusted at he
      rw [haddress, Option.any_some, List.contains_iff_mem.mpr hmem] at he
      cases he
    have hcons : (e :: right).filterMap address = ip :: right.filterMap address :=
      List.filterMap_cons_some haddress
    have hright' := addresses_trusted hright
    rw [List.filterMap_append, hcons, chosen_append hip hright', chosen_cons hright']

/-! ## Headers -/

theorem entries_of_line {headers : HeaderMap} {line : HeaderValue}
    (h : headers.values "x-forwarded-for" = [line]) :
    entries headers = line.bytes.splitOn 44 := by
  unfold entries
  rw [h, List.flatMap_cons, List.flatMap_nil, List.append_nil]

theorem charged_of_line {headers : HeaderMap} {line : HeaderValue} {rest : List HeaderValue}
    (hsocket : socket ∈ trusted) (h : headers.values "x-forwarded-for" = line :: rest)
    (hvisible : ∀ b ∈ line.bytes, HeaderValue.isVisible b = true) :
    charged trusted socket headers =
      PeerIp.chosen trusted socket ((line.bytes.splitOn 44).filterMap address) := by
  have hget : headers.get "x-forwarded-for" = some line := by
    unfold HeaderMap.get
    rw [h]
    rfl
  rw [charged_eq hsocket, hget, Option.bind_some, hops_of_visible hvisible]

/-- A chain of trusted proxies is charged to its first. -/
theorem charged_of_trusted {headers : HeaderMap} (hsocket : socket ∈ trusted)
    (h : ∀ e ∈ entries headers, isTrusted trusted e = true) :
    charged trusted socket headers = ((entries headers).head?.bind address).or (some socket) := by
  rcases hvalues : headers.values "x-forwarded-for" with _ | ⟨line, rest⟩
  · have hget : headers.get "x-forwarded-for" = none := by
      unfold HeaderMap.get
      rw [hvalues]
      rfl
    have hentries : entries headers = [] := by
      unfold entries
      rw [hvalues, List.flatMap_nil]
    rw [charged_eq hsocket, hget, hentries]
    rfl
  · have hentries : entries headers =
        line.bytes.splitOn 44 ++ rest.flatMap fun line => line.bytes.splitOn 44 := by
      unfold entries
      rw [hvalues, List.flatMap_cons]
    have hline : ∀ e ∈ line.bytes.splitOn 44, isTrusted trusted e = true := by
      intro e he
      exact h e (by rw [hentries]; exact List.mem_append_left _ he)
    have hvisible : ∀ b ∈ line.bytes, HeaderValue.isVisible b = true := by
      intro b hb
      rw [← show [44].intercalate (line.bytes.splitOn 44) = line.bytes from
        List.intercalate_splitOn 44] at hb
      rcases mem_intercalate hb with hsep | ⟨e, he, hb⟩
      · rw [List.mem_singleton.mp hsep]
        rfl
      · obtain ⟨ip, -, haddress⟩ := address_of_trusted (hline e he)
        exact visible_of_address (Option.isSome_iff_exists.mpr ⟨ip, haddress⟩) b hb
    obtain ⟨e, es, hsplit⟩ := List.exists_cons_of_ne_nil (List.splitOn_ne_nil 44 line.bytes)
    rw [hsplit] at hline hentries
    obtain ⟨ip, -, haddress⟩ := address_of_trusted (hline e List.mem_cons_self)
    have hright := addresses_trusted fun x hx => hline x (List.mem_cons_of_mem e hx)
    rw [charged_of_line hsocket hvalues hvisible, hsplit, List.filterMap_cons_some haddress,
      chosen_cons hright, hentries]
    show some ip = (address e).or (some socket)
    rw [haddress]
    rfl

/-! ## Spoofing -/

/-- The chain in one header line. -/
def chainLine (es : List Entry) : HeaderMap := [("x-forwarded-for", ⟨[44].intercalate es⟩)]

/-- A line of the client's, and the chain in another. -/
def behindLine (x : Entry) (es : List Entry) : HeaderMap :=
  ("x-forwarded-for", ⟨x⟩) :: chainLine es

theorem entries_chainLine {es : List Entry} (hne : es ≠ []) (h : ∀ e ∈ es, (44 : UInt8) ∉ e) :
    entries (chainLine es) = es := by
  have hvalues : (chainLine es).values "x-forwarded-for" = [⟨[44].intercalate es⟩] := rfl
  rw [entries_of_line hvalues]
  exact List.splitOn_intercalate 44 h hne

theorem entries_behindLine {x : Entry} {es : List Entry} (hx : (44 : UInt8) ∉ x) (hne : es ≠ [])
    (h : ∀ e ∈ es, (44 : UInt8) ∉ e) : entries (behindLine x es) = x :: es := by
  show x.splitOn 44 ++ entries (chainLine es) = x :: es
  rw [List.splitOn_eq_singleton hx, entries_chainLine hne h]
  rfl

/-- What stands between two commas holds none. -/
theorem comma_not_mem {headers : HeaderMap} {e : Entry} (h : e ∈ entries headers) :
    (44 : UInt8) ∉ e := by
  obtain ⟨line, -, he⟩ := List.mem_flatMap.mp h
  intro hmem
  exact (mem_of_mem_splitOn he 44 hmem).2 rfl

def firstSpoof : Entry := "192.0.2.1".toList.map Char.toUInt8

def secondSpoof : Entry := "192.0.2.2".toList.map Char.toUInt8

theorem address_firstSpoof : address firstSpoof = some (.v4 ⟨[192, 0, 2, 1], rfl⟩) := by
  rw [address_of_visible (by decide +kernel)]
  decide

theorem address_secondSpoof : address secondSpoof = some (.v4 ⟨[192, 0, 2, 2], rfl⟩) := by
  rw [address_of_visible (by decide +kernel)]
  decide

/-- If two different addresses can be charged on the same decisive entries, one of them is
spoofed. -/
theorem spoofable_of_spoofs {among : HeaderMap → Prop} {headers : HeaderMap}
    (spoof : Entry → HeaderMap) (hamong : ∀ x ∈ [firstSpoof, secondSpoof], among (spoof x))
    (hagree : ∀ x ∈ [firstSpoof, secondSpoof],
      decisive trusted (entries (spoof x)) = decisive trusted (entries headers))
    (hcharged : ∀ x ∈ [firstSpoof, secondSpoof],
      charged trusted socket (spoof x) = address x) :
    ¬ Unspoofable among trusted socket headers := by
  intro h
  have hsame : ∀ x ∈ [firstSpoof, secondSpoof], address x = charged trusted socket headers := by
    intro x hx
    rw [← hcharged x hx]
    exact h (spoof x) (hamong x hx) (hagree x hx)
  have hfirst := hsame firstSpoof (by simp)
  have hsecond := hsame secondSpoof (by simp)
  rw [← hsecond, address_firstSpoof, address_secondSpoof] at hfirst
  exact absurd hfirst (by decide)

theorem spoofs_visible {x : Entry} (h : x ∈ [firstSpoof, secondSpoof]) :
    (∀ b ∈ x, HeaderValue.isVisible b = true) ∧ (44 : UInt8) ∉ x ∧ (address x).isSome = true := by
  rcases List.mem_cons.mp h with rfl | h
  · exact ⟨by decide +kernel, by decide +kernel, by rw [address_firstSpoof]; rfl⟩
  · rw [List.mem_singleton.mp h]
    exact ⟨by decide +kernel, by decide +kernel, by rw [address_secondSpoof]; rfl⟩

/-- With an entry no trusted proxy wrote, a second header line spoofs. -/
theorem spoofable_of_lines {headers : HeaderMap} (hsocket : socket ∈ trusted)
    (h : ¬ ∀ e ∈ entries headers, isTrusted trusted e = true) :
    ¬ Unspoofable (fun _ => True) trusted socket headers := by
  rcases decisive_spec trusted (entries headers) with hall | ⟨left, e, right, hsplit, he, hright,
    hdecisive⟩
  · exact absurd hall h
  · have hcomma : ∀ x ∈ e :: right, (44 : UInt8) ∉ x := fun x hx =>
      comma_not_mem (by rw [hsplit]; exact List.mem_append_right _ hx)
    refine spoofable_of_spoofs (fun x => behindLine x (e :: right))
      (fun _ _ => trivial) ?_ ?_
    · intro x hx
      obtain ⟨-, hxcomma, -⟩ := spoofs_visible hx
      rw [entries_behindLine hxcomma (List.cons_ne_nil _ _) hcomma, hdecisive,
        ← List.singleton_append, decisive_append he, decisive_cons_of_trusted hright]
    · intro x hx
      obtain ⟨hvisible, hxcomma, hsome⟩ := spoofs_visible hx
      obtain ⟨ip, haddress⟩ := Option.isSome_iff_exists.mp hsome
      have hvalues : (behindLine x (e :: right)).values "x-forwarded-for" =
          [⟨x⟩, ⟨[44].intercalate (e :: right)⟩] := rfl
      rw [charged_of_line hsocket hvalues hvisible, List.splitOn_eq_singleton hxcomma,
        List.filterMap_cons_some haddress, haddress]
      exact chosen_cons fun _ h => absurd h List.not_mem_nil

/-- Trusted proxies alone wrote what a chain of trusted proxies agrees with. -/
theorem entries_of_agree {headers headers' : HeaderMap}
    (h : ∀ e ∈ entries headers, isTrusted trusted e = true)
    (hagree : decisive trusted (entries headers') = decisive trusted (entries headers)) :
    entries headers' = entries headers := by
  rw [decisive_of_trusted h] at hagree
  rcases decisive_spec trusted (entries headers') with hall | ⟨left, e, right, -, he, -, hdecisive⟩
  · rw [← hagree, decisive_of_trusted hall]
  · have hmem : e ∈ entries headers := by
      rw [← hagree, hdecisive]
      exact List.mem_cons_self
    rw [h e hmem] at he
    cases he

theorem unspoofable_of_trusted {headers : HeaderMap} (hsocket : socket ∈ trusted)
    (h : ∀ e ∈ entries headers, isTrusted trusted e = true) :
    Unspoofable (fun _ => True) trusted socket headers := by
  intro headers' _ hagree
  have hentries := entries_of_agree h hagree
  rw [charged_of_trusted hsocket h, charged_of_trusted hsocket (by rwa [hentries]), hentries]

/-! ## One line -/

theorem charged_of_oneLine {headers : HeaderMap} (hsocket : socket ∈ trusted)
    (h : OneLine headers) :
    charged trusted socket headers =
      PeerIp.chosen trusted socket ((entries headers).filterMap address) := by
  obtain ⟨line, hvalues, hvisible⟩ := h
  rw [charged_of_line hsocket hvalues (List.all_eq_true.mp hvisible), entries_of_line hvalues]

theorem oneLine_chainLine {es : List Entry}
    (h : ∀ e ∈ es, ∀ b ∈ e, HeaderValue.isVisible b = true) : OneLine (chainLine es) := by
  refine ⟨⟨[44].intercalate es⟩, rfl, List.all_eq_true.mpr ?_⟩
  intro b hb
  rcases mem_intercalate hb with hsep | ⟨e, he, hb⟩
  · rw [List.mem_singleton.mp hsep]
    rfl
  · exact h e he b hb

theorem visible_of_oneLine {headers : HeaderMap} (h : OneLine headers) :
    ∀ e ∈ entries headers, ∀ b ∈ e, HeaderValue.isVisible b = true := by
  obtain ⟨line, hvalues, hvisible⟩ := h
  intro e he b hb
  rw [entries_of_line hvalues] at he
  exact List.all_eq_true.mp hvisible b (mem_of_mem_splitOn he b hb).1

/-- A decisive entry that is no address is stepped over, and what the client put to its left
is reached. -/
theorem spoofable_of_entry {headers : HeaderMap} (hsocket : socket ∈ trusted)
    (hline : OneLine headers) (h : ¬ ∀ e ∈ decisive trusted (entries headers),
      (address e).isSome = true) : ¬ Unspoofable OneLine trusted socket headers := by
  rcases decisive_spec trusted (entries headers) with hall | ⟨left, e, right, hsplit, he, hright,
    hdecisive⟩
  · refine absurd ?_ h
    intro e hmem
    rw [decisive_of_trusted hall] at hmem
    obtain ⟨ip, -, haddress⟩ := address_of_trusted (hall e hmem)
    rw [haddress]
    rfl
  · have hnone : address e = none := by
      by_contra hsome
      refine h ?_
      rw [hdecisive]
      intro x hx
      rcases List.mem_cons.mp hx with rfl | hx
      · exact Option.isSome_iff_ne_none.mpr hsome
      · obtain ⟨ip, -, haddress⟩ := address_of_trusted (hright x hx)
        rw [haddress]
        rfl
    have hmem : ∀ x ∈ e :: right, x ∈ entries headers := fun x hx => by
      rw [hsplit]
      exact List.mem_append_right _ hx
    have hentries : ∀ x ∈ [firstSpoof, secondSpoof],
        entries (chainLine (x :: e :: right)) = x :: e :: right := by
      intro x hx
      refine entries_chainLine (List.cons_ne_nil _ _) ?_
      intro y hy
      rcases List.mem_cons.mp hy with rfl | hy
      · exact (spoofs_visible hx).2.1
      · exact comma_not_mem (hmem y hy)
    have honeLine : ∀ x ∈ [firstSpoof, secondSpoof], OneLine (chainLine (x :: e :: right)) := by
      intro x hx
      refine oneLine_chainLine ?_
      intro y hy
      rcases List.mem_cons.mp hy with rfl | hy
      · exact (spoofs_visible hx).1
      · exact visible_of_oneLine hline y (hmem y hy)
    refine spoofable_of_spoofs (fun x => chainLine (x :: e :: right)) honeLine ?_ ?_
    · intro x hx
      rw [hentries x hx, hdecisive, ← List.singleton_append, decisive_append he,
        decisive_cons_of_trusted hright]
    · intro x hx
      obtain ⟨ip, haddress⟩ := Option.isSome_iff_exists.mp (spoofs_visible hx).2.2
      rw [charged_of_oneLine hsocket (honeLine x hx), hentries x hx,
        List.filterMap_cons_some haddress, List.filterMap_cons_none hnone, haddress]
      exact chosen_cons (addresses_trusted hright)

theorem unspoofable_of_addresses {headers : HeaderMap} (hsocket : socket ∈ trusted)
    (hline : OneLine headers)
    (h : ∀ e ∈ decisive trusted (entries headers), (address e).isSome = true) :
    Unspoofable OneLine trusted socket headers := by
  intro headers' hline' hagree
  rw [charged_of_oneLine hsocket hline, charged_of_oneLine hsocket hline', chosen_decisive h,
    chosen_decisive (by rwa [hagree]), hagree]

/-- **The address charged**: behind a trusted proxy it depends on the entries from the last
untrusted one on alone only where no entry is untrusted; where the header is kept to one
visible line, wherever that last entry is an address. -/
theorem unspoofable_iff (hsocket : socket ∈ trusted) (headers : HeaderMap) :
    (Unspoofable (fun _ => True) trusted socket headers ↔
      ∀ e ∈ entries headers, isTrusted trusted e = true) ∧
    (OneLine headers → (Unspoofable OneLine trusted socket headers ↔
      ∀ e ∈ decisive trusted (entries headers), (address e).isSome = true)) := by
  refine ⟨⟨?_, unspoofable_of_trusted hsocket⟩, ?_⟩
  · intro h
    by_contra hnot
    exact spoofable_of_lines hsocket hnot h
  · intro hline
    refine ⟨?_, unspoofable_of_addresses hsocket hline⟩
    intro h
    by_contra hnot
    exact spoofable_of_entry hsocket hline hnot h

/-- A proxy that trusts itself, and a client it saw. -/
theorem forwarded_unspoofable : Unspoofable OneLine [.v4 ⟨[10, 0, 0, 1], rfl⟩]
    (.v4 ⟨[10, 0, 0, 1], rfl⟩) (chainLine [firstSpoof, secondSpoof]) := by
  have hentries : entries (chainLine [firstSpoof, secondSpoof]) = [firstSpoof, secondSpoof] :=
    entries_chainLine (List.cons_ne_nil _ _) fun e he => (spoofs_visible he).2.1
  refine ((unspoofable_iff List.mem_cons_self _).2
    (oneLine_chainLine fun e he => (spoofs_visible he).1)).mpr ?_
  intro e he
  rw [hentries] at he
  have hmem : e ∈ [firstSpoof, secondSpoof] := by
    rcases decisive_spec [.v4 ⟨[10, 0, 0, 1], rfl⟩] [firstSpoof, secondSpoof] with
      hall | ⟨left, x, right, hsplit, -, -, hdecisive⟩
    · rwa [decisive_of_trusted hall] at he
    · rw [hdecisive] at he
      rw [hsplit]
      exact List.mem_append_right _ he
  exact (spoofs_visible hmem).2.2

end

end TurboMcp.Transport
