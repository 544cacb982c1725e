import Extractor.IntakeRoundTrip
import Extractor.IntakeSchema
import Extractor.UrlCanonical

/-!
# Numeric hosts and their spelling

`numeric_host_is_ambiguous` of `crates/url-routing/src/lib.rs` refuses an IPv4 address that is not
spelled as a dotted quad. It looks for the spelling after the first `://` of the input and up to the
next slash, question mark or hash. The URL parser is more tolerant: for HTTP the slashes after the
scheme may be missing or back slashes, a back slash ends the authority as well, and tabs and line
breaks do not count. Where the two look at different places, a dotted quad at the first one hides
any spelling at the second one. A capture command comes to the check with the text that the parser
wrote, whose hosts are dotted quads already.

What the parser reads is defined by the URL Standard for special schemes; that the `url` crate
reads its IPv4 hosts there is `UrlLib.ReadsHosts`.

## Main definitions

* `standardHost`: the host text that the parser reads.
* `DecoyQuad`: a dotted quad at the place where the check looks and the parser does not.

## Main results

* `rawHost_eq_some_iff`: what the check finds.
* `standardHost_of_spelled`: where no decoy is possible, it is what the parser reads.
* `numeric_hosts_refused_iff`: exactly when a spelling is refused.
-/

namespace Extractor

/-! ### What the parser reads -/

/-- C0 controls and spaces, which are trimmed. -/
def isC0OrSpace (c : Char) : Bool := c.toNat ≤ 0x20

/-- Tabs and line breaks, which are left out. -/
def isTabOrNewline (c : Char) : Bool := c == '\t' || c == '\n' || c == '\r'

/-- Slashes of either kind. -/
def isSlash (c : Char) : Bool := c == '/' || c == '\\'

/-- A text without its trimmed end, tabs and line breaks. -/
def readEnd (text : List Char) : List Char :=
  ((text.reverse.dropWhile isC0OrSpace).reverse).filter fun c => !isTabOrNewline c

/-- The input as the parser reads it. -/
def parserInput (text : List Char) : List Char :=
  readEnd (text.dropWhile isC0OrSpace)

/-- The authority of an HTTP address: it begins after the scheme and any number of slashes, and ends
at the next one. -/
def standardAuthority (text : List Char) : Option (List Char) :=
  (Text.splitOnce [':'] (parserInput text)).map fun r =>
    Text.before ['/', '\\', '?', '#'] (r.2.dropWhile isSlash)

/-- The host text of an HTTP address, where it is not in brackets. -/
def standardHost (text : List Char) : Option (List Char) :=
  (standardAuthority text).map fun authority => Text.before [':'] (Text.afterLast '@' authority)

/-- The `url` crate makes an IPv4 host of the host text of the address. -/
def UrlLib.ReadsHosts (lib : UrlLib) (hostParser : List Char → Option Host) : Prop :=
  ∀ text url address, lib.parse text = some url → url.isHttp → url.host = some (.ipv4 address) →
    ∃ used, standardHost text.toList = some used ∧ hostParser used = some (.ipv4 address)

/-! ### What the check finds -/

/-- A text as `raw_host` takes it apart: what is before the first `://`, the user information up to
its last `@`, the host, and what follows it, which has no `@` in the authority. -/
structure Spelled (text lead user host tail : List Char) : Prop where
  split : Text.splitOnce "://".toList text = some (lead, user ++ (host ++ tail))
  user_stops : ∀ c ∈ user, c ∉ ['/', '?', '#']
  user_end : ∀ c ∈ user.getLast?, c = '@'
  tail_head : ∀ c ∈ tail.head?, c ∈ [':', '/', '?', '#']
  tail_user : '@' ∉ Text.before ['/', '?', '#'] tail

/-- **A decoy**: `raw_host` finds the host, but what is before the first `://` is not the scheme
alone, or a back slash ended the authority before the host. -/
def DecoyQuad (text host : List Char) : Prop :=
  ∃ lead user tail, Spelled text lead user host tail ∧ (':' ∈ lead ∨ '\\' ∈ user)

/-- The characters of the host have no other meaning in a URL. -/
structure PlainHost (host : List Char) : Prop where
  ne_nil : host ≠ []
  plain : ∀ c ∈ host, c ∉ ['/', '\\', '?', '#', '@', ':', '[']
  visible : ∀ c ∈ host, isC0OrSpace c = false

section Spelling

variable {text lead user host tail a : List Char} {c : Char}

theorem PlainHost.quad (address : Ipv4Addr) : PlainHost address.text.toList where
  ne_nil h := by
    have hdot : '.' ∈ address.text.toList := by
      have htext : ".".toList = ['.'] := by decide
      simp [Ipv4Addr.text, String.toList_append, htext]
    rw [h] at hdot
    cases hdot
  plain c hc := by
    rcases mem_ipv4Text hc with hdigit | rfl
    · intro hmem
      simp only [List.mem_cons, List.not_mem_nil, or_false] at hmem
      rcases hmem with rfl | rfl | rfl | rfl | rfl | rfl | rfl <;> cases hdigit
    · decide
  visible c hc := by
    rcases mem_ipv4Text hc with hdigit | rfl
    · rw [Char.isDigit, Bool.and_eq_true, decide_eq_true_eq] at hdigit
      have hlow : 48 ≤ c.toNat := UInt32.le_iff_toNat_le.mp hdigit.1
      rw [isC0OrSpace, decide_eq_false_iff_not]
      omega
    · decide

/-- A plain host passes over some of the characters that are not plain. -/
theorem PlainHost.forall_not_mem (hhost : PlainHost host) {stops : List Char}
    (hstops : stops ⊆ ['/', '\\', '?', '#', '@', ':', '[']) : ∀ c ∈ host, c ∉ stops :=
  fun c hc hstop => hhost.plain c hc (hstops hstop)

/-- User information ends at its last `@`. -/
theorem afterLast_user (huser : ∀ c ∈ user.getLast?, c = '@') (ha : '@' ∉ a) :
    Text.afterLast '@' (user ++ a) = a := by
  rcases List.eq_nil_or_concat' user with rfl | ⟨u, d, rfl⟩
  · exact Text.afterLast_eq_self ha
  · obtain rfl : d = '@' := huser d (by simp)
    rw [List.append_assoc]
    exact Text.afterLast_append_cons ha u

/-- The host is read up to the port, whatever ends the authority. -/
theorem host_of_authority {stops : List Char} (hhost : PlainHost host)
    (huser : ∀ c ∈ user, c ∉ stops) (hend : ∀ c ∈ user.getLast?, c = '@')
    (hstops : stops ⊆ ['/', '\\', '?', '#', '@', ':', '['])
    (htail : ∀ c ∈ tail.head?, c ∈ ':' :: stops) (hat : '@' ∉ Text.before stops tail) :
    Text.afterLast '@' (Text.before stops (user ++ (host ++ tail))) =
        host ++ Text.before stops tail ∧
      Text.before [':'] (host ++ Text.before stops tail) = host := by
  have hplain : '@' ∉ host := fun h => hhost.plain _ h (by decide)
  constructor
  · rw [Text.before_append_of_forall huser,
      Text.before_append_of_forall (hhost.forall_not_mem hstops)]
    refine afterLast_user hend fun h => ?_
    rcases List.mem_append.mp h with h | h
    · exact hplain h
    · exact hat h
  · have hcolon : ∀ c ∈ host, c ∉ [':'] := hhost.forall_not_mem (by decide)
    rw [Text.before_append_of_forall hcolon]
    -- what is left of the tail begins with a colon
    have hrest : ∀ c ∈ (Text.before stops tail).head?, c ∈ [':'] := by
      intro c hc
      have hmem : c ∈ Text.before stops tail := List.mem_of_mem_head? hc
      obtain ⟨rest, hsplit, -⟩ := Text.exists_eq_before_append stops tail
      have hhead : c ∈ tail.head? := by
        rw [hsplit, List.head?_append, Option.mem_def.mp hc]
        rfl
      rcases List.mem_cons.mp (htail c hhead) with rfl | hstop
      · exact List.mem_singleton_self _
      · exact absurd hstop (Text.not_mem_of_mem_before hmem)
    rw [Text.before_eq_nil hrest, List.append_nil]

/-- **What `raw_host` finds.** -/
theorem rawHost_eq_some_iff {text : String} (hhost : PlainHost host) :
    rawHost text = some host ↔ ∃ lead user tail, Spelled text.toList lead user host tail := by
  have hstops : ['/', '?', '#'] ⊆ ['/', '\\', '?', '#', '@', ':', '['] := by decide
  constructor
  · intro h
    obtain ⟨⟨lead, rest⟩, hsplit, hfound⟩ := Option.bind_eq_some_iff.mp h
    dsimp only at hfound
    split at hfound
    · cases hfound
    obtain ⟨rest', hrest, hstop⟩ := Text.exists_eq_before_append ['/', '?', '#'] rest
    obtain ⟨hat, user, hauthority, hend⟩ :=
      Text.exists_eq_append_afterLast '@' (Text.before ['/', '?', '#'] rest)
    obtain ⟨port, hport, hcolon⟩ :=
      Text.exists_eq_before_append [':'] (Text.afterLast '@' (Text.before ['/', '?', '#'] rest))
    rw [Option.some.inj hfound] at hport
    rw [hport] at hauthority hat
    have hmem : ∀ c ∈ user ++ (host ++ port), c ∉ ['/', '?', '#'] := fun c hc =>
      Text.not_mem_of_mem_before (hauthority ▸ hc)
    refine ⟨lead, user, port ++ rest', ?_, fun c hc => hmem c (by simp [hc]), hend, ?_, ?_⟩
    · rw [hsplit, hrest, hauthority]
      simp
    · intro c hc
      cases port with
      | nil => exact List.mem_cons_of_mem _ (hstop c hc)
      | cons d port =>
          obtain rfl := Option.some.inj hc
          exact List.mem_cons.mpr (Or.inl (List.mem_singleton.mp (hcolon d rfl)))
    · rw [Text.before_append_of_forall fun c hc => hmem c (by simp [hc]), Text.before_eq_nil hstop,
        List.append_nil]
      exact fun hc => hat (List.mem_append_right _ hc)
  · rintro ⟨lead, user, tail, h⟩
    obtain ⟨hafter, hbefore⟩ :=
      host_of_authority hhost h.user_stops h.user_end hstops h.tail_head h.tail_user
    have hbracket : (host ++ Text.before ['/', '?', '#'] tail).head? ≠ some '[' := by
      obtain ⟨c, rest, rfl⟩ := List.exists_cons_of_ne_nil hhost.ne_nil
      intro heq
      rw [List.cons_append, List.head?_cons] at heq
      refine hhost.plain c List.mem_cons_self ?_
      rw [Option.some.inj heq]
      decide
    rw [rawHost, h.split, Option.bind_some]
    dsimp only
    rw [hafter, if_neg hbracket, hbefore]

/-! ### Where both look at one place -/

theorem isTabOrNewline_of_visible (h : isC0OrSpace c = false) : isTabOrNewline c = false := by
  rw [isC0OrSpace, decide_eq_false_iff_not] at h
  have hne : ∀ d : Char, d.toNat ≤ 0x20 → (c == d) = false := fun d hd =>
    beq_false_of_ne fun heq => h (heq ▸ hd)
  simp [isTabOrNewline, hne '\t' (by decide), hne '\n' (by decide), hne '\r' (by decide)]

/-- Nothing is trimmed before a visible character. -/
theorem dropWhile_append_visible (hc : isC0OrSpace c = false) (text rest : List Char) :
    (text ++ c :: rest).dropWhile isC0OrSpace = text.dropWhile isC0OrSpace ++ c :: rest := by
  induction text with
  | nil => rw [List.nil_append, List.dropWhile_cons, hc]; rfl
  | cons d text ih =>
      rw [List.cons_append, List.dropWhile_cons, List.dropWhile_cons]
      split
      · exact ih
      · rfl

/-- What is before a visible character only loses its tabs and line breaks. -/
theorem readEnd_append_visible (hc : isC0OrSpace c = false) (text rest : List Char) :
    readEnd (text ++ c :: rest) =
      (text.filter fun c => !isTabOrNewline c) ++ c :: readEnd rest := by
  have hreverse : (text ++ c :: rest).reverse = rest.reverse ++ c :: text.reverse := by simp
  rw [readEnd, hreverse, dropWhile_append_visible hc, readEnd]
  simp [isTabOrNewline_of_visible hc]

/-- A plain host is read as it is. -/
theorem readEnd_append_host (hhost : PlainHost host) (text rest : List Char) :
    readEnd (text ++ (host ++ rest)) =
      (text.filter fun c => !isTabOrNewline c) ++ (host ++ readEnd rest) := by
  obtain ⟨init, last, hinit⟩ := (List.eq_nil_or_concat' host).resolve_left hhost.ne_nil
  have hlast : isC0OrSpace last = false := hhost.visible last (by simp [hinit])
  have hkeep : (init.filter fun c => !isTabOrNewline c) = init := by
    refine List.filter_eq_self.mpr fun c hc => ?_
    rw [isTabOrNewline_of_visible (hhost.visible c (by simp [hinit, hc]))]
    rfl
  have hread := readEnd_append_visible hlast (text ++ init) rest
  rw [List.filter_append, hkeep] at hread
  rw [hinit]
  simpa using hread

/-- What ends the authority is visible, so that reading loses none of it. -/
theorem readEnd_tail (hhead : ∀ c ∈ tail.head?, c ∈ [':', '/', '?', '#'])
    (hat : '@' ∉ Text.before ['/', '?', '#'] tail) :
    (∀ c ∈ (readEnd tail).head?, c ∈ [':', '/', '\\', '?', '#']) ∧
      '@' ∉ Text.before ['/', '\\', '?', '#'] (readEnd tail) := by
  have hvisible : ∀ c ∈ [':', '/', '?', '#'], isC0OrSpace c = false := by simp [isC0OrSpace]
  constructor
  · cases tail with
    | nil => exact fun c hc => nomatch hc
    | cons d tail =>
        have hd := hhead d rfl
        have hread : readEnd (d :: tail) = d :: readEnd tail :=
          readEnd_append_visible (hvisible d hd) [] tail
        rw [hread]
        intro c hc
        obtain rfl := Option.some.inj hc
        have hsub : [':', '/', '?', '#'] ⊆ [':', '/', '\\', '?', '#'] := by decide
        exact hsub hd
  · intro h
    obtain ⟨rest, htail, hstop⟩ := Text.exists_eq_before_append ['/', '?', '#'] tail
    cases rest with
    | nil =>
        rw [List.append_nil] at htail
        refine hat ?_
        have hread := (List.takeWhile_sublist _).subset h
        rw [readEnd] at hread
        have hdrop := List.mem_reverse.mp (List.mem_of_mem_filter hread)
        rw [← htail]
        exact List.mem_reverse.mp ((List.dropWhile_sublist _).subset hdrop)
    | cons s rest =>
        have hs := hstop s rfl
        rw [htail, readEnd_append_visible (hvisible s (List.mem_cons_of_mem _ hs))] at h
        have hsub : ['/', '?', '#'] ⊆ ['/', '\\', '?', '#'] := by decide
        exact hat (List.mem_of_mem_filter (Text.mem_of_mem_before_append (hsub hs) h))

/-- **Where the scheme ends at the first `://` and no back slash is before the host**, the parser
reads the host that `raw_host` finds. -/
theorem standardHost_of_spelled (hhost : PlainHost host) (h : Spelled text lead user host tail)
    (hlead : ':' ∉ lead) (huser : '\\' ∉ user) : standardHost text = some host := by
  -- what the parser reads of the scheme and of the user information
  obtain ⟨scheme, hscheme⟩ : ∃ scheme, scheme = (lead.dropWhile isC0OrSpace).filter fun c =>
    !isTabOrNewline c := ⟨_, rfl⟩
  obtain ⟨info, hinfo⟩ : ∃ info, info = user.filter fun c => !isTabOrNewline c := ⟨_, rfl⟩
  have hinput : parserInput text =
      scheme ++ (':' :: '/' :: '/' :: (info ++ (host ++ readEnd tail))) := by
    have hseparator : "://".toList = [':', '/', '/'] := by decide
    have htext : text = lead ++ ':' :: ('/' :: '/' :: (user ++ (host ++ tail))) := by
      rw [Text.eq_append_of_splitOnce h.split, hseparator]
      rfl
    have hread := readEnd_append_host hhost
      (lead.dropWhile isC0OrSpace ++ (':' :: '/' :: '/' :: user)) tail
    rw [parserInput, htext, dropWhile_append_visible (by decide), hscheme, hinfo]
    simpa [isTabOrNewline] using hread
  have hcolon : ':' ∉ scheme := by
    rw [hscheme]
    exact fun hc => hlead ((List.dropWhile_sublist _).subset (List.mem_of_mem_filter hc))
  have hsplit : Text.splitOnce [':']
      (scheme ++ (':' :: '/' :: '/' :: (info ++ (host ++ readEnd tail)))) =
        some (scheme, '/' :: '/' :: (info ++ (host ++ readEnd tail))) :=
    Text.splitOnce_append hcolon [] _
  have hstops : ∀ c ∈ info, c ∉ ['/', '\\', '?', '#'] := by
    intro c hc hstop
    rw [hinfo] at hc
    have hmem := List.mem_of_mem_filter hc
    have hother := h.user_stops c hmem
    simp only [List.mem_cons, List.not_mem_nil, or_false, not_or] at hstop hother
    rcases hstop with rfl | rfl | rfl | rfl
    · exact hother.1 rfl
    · exact huser hmem
    · exact hother.2.1 rfl
    · exact hother.2.2 rfl
  have hend : ∀ c ∈ info.getLast?, c = '@' := by
    rw [hinfo]
    rcases List.eq_nil_or_concat' user with rfl | ⟨u, d, rfl⟩
    · exact fun c hc => nomatch hc
    · obtain rfl : d = '@' := h.user_end d (by simp)
      simp [isTabOrNewline]
  -- the two slashes are the only ones that are skipped
  have hskip : ('/' :: '/' :: (info ++ (host ++ readEnd tail))).dropWhile isSlash =
      info ++ (host ++ readEnd tail) := by
    have hne : info ++ host ≠ [] := fun hnil => hhost.ne_nil (List.append_eq_nil_iff.mp hnil).2
    obtain ⟨c, rest, hcons⟩ := List.exists_cons_of_ne_nil hne
    have hc : isSlash c = false := by
      have hmem : c ∈ info ++ host := hcons ▸ List.mem_cons_self
      have hplain : c ∉ ['/', '\\'] := by
        rcases List.mem_append.mp hmem with hmem | hmem
        · intro hslash
          have hsubset : ['/', '\\'] ⊆ ['/', '\\', '?', '#'] := by simp
          exact hstops c hmem (hsubset hslash)
        · exact hhost.forall_not_mem (by decide) c hmem
      simpa [isSlash] using hplain
    have hslash : isSlash '/' = true := by decide
    rw [← List.append_assoc, hcons, List.cons_append, List.dropWhile_cons, hslash, if_pos rfl,
      List.dropWhile_cons, hslash, if_pos rfl, List.dropWhile_cons, hc]
    rfl
  obtain ⟨hhead, hat⟩ := readEnd_tail h.tail_head h.tail_user
  obtain ⟨hafter, hbefore⟩ := host_of_authority hhost hstops hend (by decide) hhead hat
  rw [standardHost, standardAuthority, hinput, hsplit, Option.map_some, Option.map_some]
  dsimp only
  rw [hskip, hafter, hbefore]

end Spelling

/-! ### Accepted addresses -/

/-- What `normalize` asks of a URL apart from the spelling of its host. -/
structure AdmittedUrl (policy : RoutingPolicy) (text : String) (url : Url) : Prop where
  size : text.utf8ByteSize ≤ policy.maxUrlLength
  username : url.username = ""
  password : url.password = none
  port : url.port ≠ some 0
  allowed : ∃ port, url.portOrKnownDefault = some port ∧ port ∈ policy.allowedPorts

/-- The payload is that of a capture command for this address. -/
def Carries (commands : CommandLib) (payload : List UInt8) (text : String) : Prop :=
  ∃ envelope request, commands.fromJson payload = some envelope ∧
    envelope.request = some request ∧ request.url = some text

section Accepted

variable {lib : UrlLib} {commands : CommandLib} {contracts : Contracts} {policy : RoutingPolicy}
  {text subject : String} {payload : List UInt8} {command : CaptureCommand} {url : Url}
  {address : Ipv4Addr} {hostParser : List Char → Option Host}

theorem length_ipv4Text_le (address : Ipv4Addr) : address.text.length ≤ 15 := by
  have hoctet : ∀ octet : UInt8, (toString octet).length ≤ 3 := fun octet =>
    (Nat.length_repr_le_iff (by decide)).mpr (Nat.lt_trans octet.toNat_lt (by decide))
  have h1 := hoctet address.first
  have h2 := hoctet address.second
  have h3 := hoctet address.third
  have h4 := hoctet address.fourth
  have hdot : ".".length = 1 := by decide
  simp only [Ipv4Addr.text, String.length_append, hdot]
  omega

/-- A numeric host is not ambiguous when `raw_host` finds its dotted quad. -/
theorem numericHostIsAmbiguous_eq_false_iff (hhost : url.host = some (.ipv4 address)) :
    numericHostIsAmbiguous lib text url = false ↔ rawHost text = some address.text.toList := by
  have hstr : url.hostStr lib = some address.text := by
    rw [Url.hostStr, hhost]
    rfl
  rw [numericHostIsAmbiguous, hhost, hstr]
  cases hraw : rawHost text with
  | none => simp
  | some raw =>
      rw [Bool.not_eq_false', Text.eqIgnoreAsciiCase, beq_iff_eq, Option.some_inj]
      refine ⟨fun h => Text.eq_of_asciiLower_eq h fun c hc => ?_, fun h => congrArg _ h⟩
      rcases mem_ipv4Text hc with hdigit | rfl
      · rw [Char.isDigit, Bool.and_eq_true, decide_eq_true_eq, decide_eq_true_eq] at hdigit
        have hle : c.toNat ≤ 57 := UInt32.le_iff_toNat_le.mp hdigit.2
        rw [← Bool.not_eq_true, Text.isAlpha_iff]
        omega
      · decide

/-- **What `normalize` accepts** of the addresses with an IPv4 host. -/
theorem normalize_ipv4_iff (hparse : lib.parse text = some url) (hhttp : url.isHttp)
    (hhost : url.host = some (.ipv4 address)) :
    (∃ n, normalize lib text policy = .ok n) ↔
      AdmittedUrl policy text url ∧ rawHost text = some address.text.toList := by
  constructor
  · rintro ⟨n, hn⟩
    obtain ⟨hsize, -, url', hparse', -, -, huser, hpass, hzero, hport, hnumeric, -⟩ :=
      normalize_eq_ok_iff.mp hn
    rw [hparse] at hparse'
    obtain rfl := Option.some.inj hparse'
    exact ⟨⟨hsize, huser, hpass, hzero, hport⟩,
      (numericHostIsAmbiguous_eq_false_iff hhost).mp hnumeric⟩
  · rintro ⟨h, hraw⟩
    have hscheme : Text.contains "://".toList text.toList = true := by
      obtain ⟨r, hsplit, -⟩ := Option.bind_eq_some_iff.mp hraw
      rw [Text.contains, hsplit]
      rfl
    have hsome : url.host.isSome = true := by rw [hhost]; rfl
    exact ⟨_, normalize_eq_ok_iff.mpr ⟨h.size, hscheme, url, hparse, hhttp, hsome, h.username,
      h.password, h.port, h.allowed, (numericHostIsAmbiguous_eq_false_iff hhost).mpr hraw, rfl⟩⟩

/-- The text that the parser wrote is refused for other reasons only. -/
theorem normalize_asStr_iff (hserial : lib.Serializes) (hlib : lib.Lawful)
    (hparse : lib.parse text = some url) (hhttp : url.isHttp)
    (hhost : url.host = some (.ipv4 address)) :
    (∃ n, normalize lib (lib.asStr url) policy = .ok n) ↔
      AdmittedUrl policy (lib.asStr url) url := by
  rw [normalize_ipv4_iff (hlib.parse_asStr text url hparse) hhttp hhost, and_iff_left_iff_imp]
  intro h
  obtain ⟨rest, hroot⟩ := hserial.rooted text url hparse hhttp
  have hstr : url.hostStr lib = some address.text := by
    rw [Url.hostStr, hhost]
    rfl
  exact rawHost_serialized hhttp hroot
    (hserial.serialized url address.text hhttp h.username h.password hstr)

/-- The source of a command is the URL of the address that its payload names. -/
theorem source_of_carries (hdecode : decodeCapture lib commands subject payload = .ok command)
    (hcarries : Carries commands payload text) (hparse : lib.parse text = some url) :
    command.source = .url url := by
  obtain ⟨envelope, request, henvelope, hrequest, hurl⟩ := hcarries
  simp only [decodeCapture, Except.bind_eq_ok_iff, Except.require_eq_ok_iff,
    Except.okOr_eq_ok_iff] at hdecode
  obtain ⟨-, -, envelope', henvelope', -, -, -, -, _, -, request', hrequest', -, -, source,
    hsource, heq⟩ := hdecode
  rw [henvelope] at henvelope'
  obtain rfl := Option.some.inj henvelope'
  rw [hrequest] at hrequest'
  obtain rfl := Option.some.inj hrequest'
  obtain rfl := Except.ok.inj heq
  rw [captureSource, hurl] at hsource
  cases hblob : request.blob with
  | none =>
      rw [hblob] at hsource
      simp only [Except.bind_eq_ok_iff, Except.require_eq_ok_iff, Except.okOr_eq_ok_iff] at hsource
      obtain ⟨url', hparse', -, -, heq⟩ := hsource
      rw [hparse] at hparse'
      obtain rfl := Option.some.inj hparse'
      exact (Except.ok.inj heq).symm
  | some blob =>
      rw [hblob] at hsource
      cases hsource

/-- The address that intake stores for a URL fits an entry of the index. -/
def IndexedUrl (lib : UrlLib) (url : Url) : Prop :=
  lib.indexFits (lib.asStr (removeTrackingQuery lib { url with fragment := none })) = true

/-- **A capture of a numeric host** is queued, at its first delivery or never, exactly when its URL
is admitted and the index takes it; the spelling of the address is no longer known. -/
theorem capture_queued_iff (hserial : lib.Serializes) (hlib : lib.Lawful)
    (htyped : commands.Typed) (hparse : lib.parse text = some url) (hhttp : url.isHttp)
    (hhost : url.host = some (.ipv4 address))
    (hdecode : decodeCapture lib commands subject payload = .ok command)
    (hcarries : Carries commands payload text) (hreported : command.Reported contracts) :
    (∃ now db, db.Indexed lib ∧
        (consumeCapture lib commands contracts now subject payload db).1 = .ok .applied) ↔
      AdmittedUrl intakePolicy (lib.asStr url) url ∧ IndexedUrl lib url := by
  have hsource := source_of_carries hdecode hcarries hparse
  have hstored : ∀ n, normalize lib (lib.asStr url) intakePolicy = .ok n →
      n.normalized = removeTrackingQuery lib { url with fragment := none } := by
    intro n hn
    obtain ⟨-, -, url', hparse', -, -, -, -, -, -, -, rfl⟩ := normalize_eq_ok_iff.mp hn
    rw [hlib.parse_asStr text url hparse] at hparse'
    rw [Option.some.inj hparse']
  rw [← normalize_asStr_iff hserial hlib hparse hhttp hhost]
  constructor
  · rintro ⟨now, db, hdb, happlied⟩
    rw [consumeCapture, hdecode] at happlied
    cases hconsume : consumeCommand lib contracts now command db with
    | error e =>
        simp [transact, hconsume] at happlied
    | ok r =>
        obtain ⟨reception, db'⟩ := r
        simp only [transact, hconsume] at happlied
        obtain rfl := Except.ok.inj happlied
        obtain ⟨p, sourceId, hp, hupserted, -⟩ := consumeCommand_applied hconsume
        have hfits := hupserted.indexFits hdb
        obtain ⟨url', n, host, hurl', hnormal, -, rfl⟩ | ⟨blob, hblob, -⟩ := prepareSource_eq_ok hp
        · rw [hsource] at hurl'
          obtain rfl := CaptureSource.url.inj hurl'
          refine ⟨⟨n, hnormal⟩, ?_⟩
          rw [IndexedUrl, ← hstored n hnormal]
          exact hfits
        · rw [hsource] at hblob
          cases hblob
  · rintro ⟨⟨n, hnormal⟩, hindexed⟩
    have hpasses : command.SourcePasses lib := by
      rw [CaptureCommand.SourcePasses, hsource]
      exact ⟨n, hnormal⟩
    have hfits : command.HostFits lib := by
      rw [CaptureCommand.HostFits, hsource]
      intro host hstr
      rw [Url.hostStr, hhost] at hstr
      rw [← Option.some.inj hstr]
      exact Nat.le_trans (length_ipv4Text_le address) (by decide)
    have hrows := (CaptureCommand.rowsChecked_iff_hostFits hlib htyped hdecode hpasses).mpr hfits
    have hrowIndexed : command.RowIndexed lib := by
      intro now fresh p hp
      obtain ⟨url', n', host, hurl', hnormal', -, rfl⟩ | ⟨blob, hblob, -⟩ := prepareSource_eq_ok hp
      · rw [hsource] at hurl'
        obtain rfl := CaptureSource.url.inj hurl'
        rw [IndexedUrl, ← hstored n' hnormal'] at hindexed
        exact hindexed
      · rw [hsource] at hblob
        cases hblob
    obtain ⟨envelope, request, henvelope, -, -, hcorrelation, -⟩ := decodeCapture_eq_ok hdecode
    have hcorr : storable command.correlationId = true :=
      hcorrelation ▸ htyped.correlation payload envelope henvelope
    have hempty : Db.empty.OutboxBounded := fun r hr => absurd hr List.not_mem_nil
    refine ⟨0, Db.empty, fun r hr => absurd hr List.not_mem_nil, ?_⟩
    rw [consumeCapture, hdecode]
    cases hconsume : consumeCommand lib contracts 0 command Db.empty with
    | error e =>
        exfalso
        obtain ⟨p, hp⟩ := hpasses.prepared 0 Db.empty.nextUuid
        rcases consumeCommand_eq_error hrows hrowIndexed hcorr hempty rfl hconsume with h | h
        · rw [hp] at h
          cases h
        · exact h.1 hreported
    | ok r =>
        obtain ⟨reception, db'⟩ := r
        rcases consumeCommand_eq_ok hconsume with ⟨-, ⟨r, hr, -⟩, -⟩ | ⟨rfl, -, -⟩
        · cases hr
        · simp [transact, hconsume]

/-- **Numeric hosts are refused**, apart from decoys and captures. The parser reads the IPv4 host of
an address in some host text. `normalize` accepts no other spelling than the dotted quad unless a
decoy hides it and nothing else is wrong with the address; a capture command is queued with any
spelling, unless something else is wrong with the URL that the parser made of it or the index of
the sources cannot hold it. -/
theorem numeric_hosts_refused_iff (contracts : Contracts) (hserial : lib.Serializes)
    (hlib : lib.Lawful) (hreads : lib.ReadsHosts hostParser) (htyped : commands.Typed)
    (hparse : lib.parse text = some url) (hhttp : url.isHttp)
    (hhost : url.host = some (.ipv4 address)) :
    ∃ used, standardHost text.toList = some used ∧ hostParser used = some (.ipv4 address) ∧
      (∀ policy, (∀ n, normalize lib text policy = .ok n → used = address.text.toList) ↔
        used = address.text.toList ∨ ¬ DecoyQuad text.toList address.text.toList ∨
          ¬ AdmittedUrl policy text url) ∧
      ∀ subject payload command, decodeCapture lib commands subject payload = .ok command →
        Carries commands payload text → command.Reported contracts →
        ((∀ now db, db.Indexed lib →
            (consumeCapture lib commands contracts now subject payload db).1 = .ok .applied →
            used = address.text.toList) ↔
          used = address.text.toList ∨ ¬ AdmittedUrl intakePolicy (lib.asStr url) url ∨
            ¬ IndexedUrl lib url) := by
  obtain ⟨used, hused, hspells⟩ := hreads text url address hparse hhttp hhost
  have hplain := PlainHost.quad address
  refine ⟨used, hused, hspells, fun policy => ⟨fun h => ?_, fun h n hn => ?_⟩,
    fun subject payload command hdecode hcarries hreported => ?_⟩
  · by_contra hnot
    simp only [not_or, not_not] at hnot
    obtain ⟨hother, ⟨lead, user, tail, hspelled, -⟩, hadmitted⟩ := hnot
    have hraw := (rawHost_eq_some_iff hplain).mpr ⟨lead, user, tail, hspelled⟩
    obtain ⟨n, hn⟩ := (normalize_ipv4_iff hparse hhttp hhost).mpr ⟨hadmitted, hraw⟩
    exact hother (h n hn)
  · obtain ⟨hadmitted, hraw⟩ := (normalize_ipv4_iff hparse hhttp hhost).mp ⟨n, hn⟩
    obtain ⟨lead, user, tail, hspelled⟩ := (rawHost_eq_some_iff hplain).mp hraw
    rcases h with h | h | h
    · exact h
    · by_cases hplace : ':' ∈ lead ∨ '\\' ∈ user
      · exact absurd ⟨lead, user, tail, hspelled, hplace⟩ h
      · obtain ⟨hlead, huser⟩ := not_or.mp hplace
        have hsame := standardHost_of_spelled hplain hspelled hlead huser
        rw [hused] at hsame
        exact Option.some.inj hsame
    · exact absurd hadmitted h
  · have hqueued := capture_queued_iff hserial hlib htyped hparse hhttp hhost hdecode hcarries
      hreported
    constructor
    · intro h
      by_contra hnot
      simp only [not_or, not_not] at hnot
      obtain ⟨hother, hadmitted, hindexed⟩ := hnot
      obtain ⟨now, db, hdb, happlied⟩ := hqueued.mpr ⟨hadmitted, hindexed⟩
      exact hother (h now db hdb happlied)
    · rintro (h | h | h) now db hdb happlied
      · exact h
      · exact absurd (hqueued.mp ⟨now, db, hdb, happlied⟩).1 h
      · exact absurd (hqueued.mp ⟨now, db, hdb, happlied⟩).2 h

end Accepted

/-! ### A hexadecimal address -/

/-- A public address. -/
def hexUrl : Url :=
  ⟨"http", "", none, some (.ipv4 ⟨93, 184, 216, 34⟩), none, "/", none, none⟩

/-- The same host, with a second address in the path. -/
def decoyUrl : Url := { hexUrl with path := "/://93.184.216.34/" }

/-- The URL functions on these addresses, and on two texts with their hexadecimal spelling. -/
def hexLib : UrlLib :=
  { tableLib [hexUrl, decoyUrl] with
    parse := fun text =>
      if text = "http://0x5db8d822/" then some hexUrl
      else if text = "http:/0x5db8d822/://93.184.216.34/" then some decoyUrl
      else (tableLib [hexUrl, decoyUrl]).parse text }

/-- The host parser on the two spellings. -/
def hexHosts (host : List Char) : Option Host :=
  if host = "0x5db8d822".toList ∨ host = "93.184.216.34".toList then hexUrl.host else none

theorem hexLib_parse {text : String} {url : Url} (h : hexLib.parse text = some url) :
    text = "http://0x5db8d822/" ∧ url = hexUrl ∨
      text = "http:/0x5db8d822/://93.184.216.34/" ∧ url = decoyUrl ∨
      text = tableText url ∧ (url = hexUrl ∨ url = decoyUrl) := by
  change (if text = "http://0x5db8d822/" then some hexUrl
    else if text = "http:/0x5db8d822/://93.184.216.34/" then some decoyUrl
    else (tableLib [hexUrl, decoyUrl]).parse text) = some url at h
  split at h
  · next htext => exact Or.inl ⟨htext, (Option.some.inj h).symm⟩
  · split at h
    · next htext => exact Or.inr (Or.inl ⟨htext, (Option.some.inj h).symm⟩)
    · have hfind : [hexUrl, decoyUrl].find? (fun url => tableText url == text) = some url := h
      have hmem := List.mem_of_find?_eq_some hfind
      have htext := List.find?_some hfind
      exact Or.inr (Or.inr ⟨(beq_iff_eq.mp htext).symm, by simpa using hmem⟩)

theorem eq_of_hexLib_parse {text : String} {url : Url} (h : hexLib.parse text = some url) :
    url = hexUrl ∨ url = decoyUrl := by
  rcases hexLib_parse h with ⟨-, rfl⟩ | ⟨-, rfl⟩ | ⟨-, h⟩
  · exact Or.inl rfl
  · exact Or.inr rfl
  · exact h

theorem hexLib_lawful : hexLib.Lawful where
  serialized _ _ _ _ _ hhost := tableText_toList [hexUrl, decoyUrl] hhost
  parse_asStr text url hparse := by
    rcases eq_of_hexLib_parse hparse with rfl | rfl
    · decide +kernel
    · decide +kernel
  domain_ne text url name hparse hhost := by
    rcases eq_of_hexLib_parse hparse with rfl | rfl <;> cases hhost
  storable_asStr text url hparse := by
    rcases eq_of_hexLib_parse hparse with rfl | rfl
    · decide +kernel
    · decide +kernel

theorem hexLib_serializes : hexLib.Serializes where
  serialized := hexLib_lawful.serialized
  rooted text url hparse _ := by
    rcases eq_of_hexLib_parse hparse with rfl | rfl
    · exact ⟨[], by decide⟩
    · exact ⟨"://93.184.216.34/".toList, by decide +kernel⟩
  reparse text url pairs hparse _ hpairs := by
    have hnone : url.queryPairs = [] ∧ url.withPairs [] = url := by
      rcases eq_of_hexLib_parse hparse with rfl | rfl <;> exact ⟨rfl, rfl⟩
    rw [hnone.1] at hpairs
    rw [List.sublist_nil.mp hpairs, hnone.2]
    exact hexLib_lawful.parse_asStr text url hparse

theorem hexLib_readsHosts : hexLib.ReadsHosts hexHosts := by
  intro text url address hparse _ hhost
  have hread : ∃ used, standardHost text.toList = some used ∧ hexHosts used = url.host := by
    rcases hexLib_parse hparse with ⟨rfl, rfl⟩ | ⟨rfl, rfl⟩ | ⟨rfl, rfl | rfl⟩
    · exact ⟨"0x5db8d822".toList, by decide +kernel, by decide +kernel⟩
    · exact ⟨"0x5db8d822".toList, by decide +kernel, by decide +kernel⟩
    · exact ⟨"93.184.216.34".toList, by decide +kernel, by decide +kernel⟩
    · exact ⟨"93.184.216.34".toList, by decide +kernel, by decide +kernel⟩
  rwa [hhost] at hread

/-- The address with a decoy passes every other check. -/
theorem admitted_decoy :
    AdmittedUrl ⟨8192, [80, 443]⟩ "http:/0x5db8d822/://93.184.216.34/" decoyUrl :=
  ⟨by decide +kernel, rfl, rfl, by decide, 80, rfl, by decide⟩

theorem spelled_decoy : Spelled "http:/0x5db8d822/://93.184.216.34/".toList
    "http:/0x5db8d822/".toList [] "93.184.216.34".toList ['/'] where
  split := by decide +kernel
  user_stops c hc := nomatch hc
  user_end c hc := nomatch hc
  tail_head c hc := by
    obtain rfl := Option.some.inj hc
    decide
  tail_user := by decide

/-- **A hexadecimal address is accepted behind a decoy, and captured without one.** -/
theorem numeric_hosts_accepted :
    (∃ n, normalize hexLib "http:/0x5db8d822/://93.184.216.34/" ⟨8192, [80, 443]⟩ = .ok n) ∧
      standardHost "http:/0x5db8d822/://93.184.216.34/".toList = some "0x5db8d822".toList ∧
      decoyUrl.host = some (.ipv4 ⟨93, 184, 216, 34⟩) ∧
    (¬ ∃ n, normalize hexLib "http://0x5db8d822/" ⟨8192, [80, 443]⟩ = .ok n) ∧
      ∃ now db, db.Indexed hexLib ∧ (consumeCapture hexLib (urlCommands "http://0x5db8d822/")
        exampleContracts now captureSubject [] db).1 = .ok .applied := by
  have hquad : Ipv4Addr.text ⟨93, 184, 216, 34⟩ = "93.184.216.34" := by decide +kernel
  have hraw : rawHost "http:/0x5db8d822/://93.184.216.34/" = some "93.184.216.34".toList := by
    decide +kernel
  have hplain : rawHost "http://0x5db8d822/" ≠ some "93.184.216.34".toList := by decide +kernel
  have hparse : hexLib.parse "http://0x5db8d822/" = some hexUrl := by decide +kernel
  refine ⟨?_, by decide +kernel, rfl, ?_, ?_⟩
  · rw [normalize_ipv4_iff (by decide +kernel : _ = some decoyUrl) (Or.inl rfl) rfl, hquad]
    exact ⟨admitted_decoy, hraw⟩
  · rw [normalize_ipv4_iff hparse (Or.inl rfl) rfl, hquad]
    exact fun h => hplain h.2
  · have hdecode := decodeCapture_url hparse (Or.inl rfl)
    have hreported : (urlCommand hexUrl).Reported exampleContracts := rfl
    rw [capture_queued_iff hexLib_serializes hexLib_lawful (urlCommands_typed _) hparse (Or.inl rfl)
      rfl hdecode ⟨_, _, rfl, rfl, rfl⟩ hreported]
    exact ⟨⟨by decide +kernel, rfl, rfl, by decide, 80, rfl, by decide⟩,
      (by decide +kernel : hexLib.indexFits _ = true)⟩

/-- The spelling of the address with a decoy is refused nowhere. -/
theorem numeric_hosts_refused_decoy :
    (¬ ∀ n, normalize hexLib "http:/0x5db8d822/://93.184.216.34/" ⟨8192, [80, 443]⟩ = .ok n →
      standardHost "http:/0x5db8d822/://93.184.216.34/".toList = some "93.184.216.34".toList) ∧
    ¬ ∀ now db, db.Indexed hexLib →
      (consumeCapture hexLib (urlCommands "http:/0x5db8d822/://93.184.216.34/")
        exampleContracts now captureSubject [] db).1 = .ok .applied →
      standardHost "http:/0x5db8d822/://93.184.216.34/".toList = some "93.184.216.34".toList := by
  have hparse : hexLib.parse "http:/0x5db8d822/://93.184.216.34/" = some decoyUrl := by
    decide +kernel
  have hquad : (Ipv4Addr.text ⟨93, 184, 216, 34⟩).toList = "93.184.216.34".toList := by
    decide +kernel
  obtain ⟨used, hused, -, hnormal, hcapture⟩ := numeric_hosts_refused_iff exampleContracts
    hexLib_serializes hexLib_lawful hexLib_readsHosts
    (urlCommands_typed "http:/0x5db8d822/://93.184.216.34/") hparse (Or.inl rfl) rfl
  rw [hquad] at hnormal hcapture
  have hother : used ≠ "93.184.216.34".toList := by
    rintro rfl
    exact absurd hused (by decide +kernel)
  rw [hused, Option.some_inj]
  refine ⟨fun h => ?_, fun h => ?_⟩
  · rcases (hnormal _).mp h with h | h | h
    · exact hother h
    · exact h ⟨_, _, _, spelled_decoy, Or.inl (by decide +kernel)⟩
    · exact h admitted_decoy
  · have hdecode := decodeCapture_url hparse (Or.inl rfl)
    have hreported : (urlCommand decoyUrl).Reported exampleContracts := rfl
    rcases (hcapture _ _ _ hdecode ⟨_, _, rfl, rfl, rfl⟩ hreported).mp h with h | h | h
    · exact hother h
    · exact h ⟨by decide +kernel, rfl, rfl, by decide, 80, rfl, by decide⟩
    · exact h (by unfold IndexedUrl; decide +kernel)

end Extractor
