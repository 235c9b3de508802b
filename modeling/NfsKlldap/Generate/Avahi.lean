import NfsKlldap.Generate.ServiceConf
import NfsKlldap.Lib.Xml

/-! # Avahi service files (`generate/avahi.rs`, `krb5/hostname.rs`)

Every share that is advertised has a service file, an XML document with the name of the share in a
comment and in an element, and its Pseudo path in a record. The files are named by the sanitised
names of the shares; stale ones are recognised by prefix and suffix.

* **`writeAvahiServices`** — one run on the directory;
* **`readXml_serviceText`**, **`serviceTextOk_of_readXml`** — when a service file is a document;
* **`Advertises`** — every advertised share has a file of its own that says its Pseudo path, and
  nothing else has changed;
* **`avahi_advertises_iff`** — in every sequence of runs, when that holds of the successful ones. -/

namespace NfsKlldap

open Text OwnedFiles Runs Xml

/-! ## The host name -/

/-- Short name plus the name with a domain, if there is one. -/
structure NfsHostIdentity where
  short : Str
  fqdn : Option Str

/-- `preferred` -/
def NfsHostIdentity.preferred (h : NfsHostIdentity) : Str := h.fqdn.getD h.short

/-- `trim_matches('.')` -/
def trimDots (s : Str) : Str := (s.dropWhile (· = '.')).rdropWhile (· = '.')

/-- The DNS domain of a realm; the placeholders have none. -/
def realmDnsDomain (realm : Str) : Option Str :=
  let r := trimDots (trim realm)
  if r = [] then none
  else if eqIgnoreAsciiCase r "YOUR.REALM".toList || eqIgnoreAsciiCase r "YOUR".toList then none
  else some (toAsciiLowercase r)

/-- `resolve_nfs_host_identity`: the short name and the full name of the host. -/
def resolveNfsHostIdentity (host realm : Str) : NfsHostIdentity :=
  let h := trimDots (trim host)
  if h = [] then ⟨[], none⟩
  else if '.' ∈ h then ⟨before '.' h, some h⟩
  else ⟨before '.' h, (realmDnsDomain realm).map fun domain => before '.' h ++ '.' :: domain⟩

/-- The configured host name, or the one that is observed. -/
def effectiveHostname (cfg : NfsKlldapConfig) (observed : Option Str) : Str :=
  cfg.server.hostname.getD (observed.getD "nfs-host".toList)

/-- `effective_nfs_host_identity`: what is configured comes before what is observed. -/
def effectiveNfsHostIdentity (cfg : NfsKlldapConfig) (observed : Option Str) : NfsHostIdentity :=
  resolveNfsHostIdentity (effectiveHostname cfg observed) (effectiveRealm cfg)

/-! ## Service files -/

/-- What the name of a service file starts with. -/
def navahiPrefix : Str := "nfs-klldap-".toList

/-- What the name of a service file ends in. -/
def serviceSuffix : Str := ".service".toList

/-- `xml_escape` -/
def xmlEscape (s : Str) : Str := escape s

/-- The file of a share. -/
def serviceFileName (t : CharTable) (name : Str) : Str :=
  navahiPrefix ++ (sanitizeName t name ++ serviceSuffix)

/-- What the prune takes for a service file. -/
def isServiceFile (name : Str) : Bool :=
  navahiPrefix.isPrefixOf name && serviceSuffix.isSuffixOf name

/-- The target, unless the host has no domain. -/
def hostLine (host : Str) : Str :=
  if '.' ∈ host then "    <host-name>".toList ++ xmlEscape host ++ "</host-name>\n".toList else []

/-- The text of a service file. -/
def serviceText (host name pseudo : Str) : Str :=
  ("<?xml version=\"1.0\" standalone='no'?>\n" ++
      "<!DOCTYPE service-group SYSTEM \"avahi-service.dtd\">\n" ++
      "<!-- Generated from nfs-klldap.conf share \"").toList ++ xmlEscape name ++
    ("\"; edits are overwritten. -->\n<service-group>\n" ++
      "  <name replace-wildcards=\"yes\">").toList ++ xmlEscape name ++
    " on %h</name>\n  <service>\n    <type>_nfs._tcp</type>\n".toList ++ hostLine host ++
    "    <port>2049</port>\n    <txt-record>path=".toList ++ xmlEscape pseudo ++
    "</txt-record>\n  </service>\n</service-group>\n".toList

/-- A run: the config, the observed host name, and what goes wrong. -/
structure AvahiRun where
  cfg : NfsKlldapConfig
  observed : Option Str
  /-- Whether the directory is there or can be created. -/
  created : Bool
  faults : Faults Str Str

namespace AvahiRun

/-- The host name in the service files. -/
def host (r : AvahiRun) : Str := (effectiveNfsHostIdentity r.cfg r.observed).preferred

/-- The shares that are advertised. -/
def advertised (r : AvahiRun) : List Share := r.cfg.shares.filter (shareNavahiEffective r.cfg)

/-- The files of a run. -/
def staged (t : CharTable) (r : AvahiRun) : List (Str × Str) :=
  r.advertised.map fun s =>
    (serviceFileName t s.name, serviceText r.host s.name (deriveSharePseudo s))

end AvahiRun

/-- `write_avahi_services`: a directory that is not there is not created to advertise nothing. The
mode of a file is set after it is written. -/
def writeAvahiServices (t : CharTable) (r : AvahiRun) (dir : Option TextDir) :
    Except GenerateError Unit × Option TextDir :=
  if !r.cfg.navahiDiscovery && dir.isNone then (.ok (), dir)
  else if !r.created then (.error .io, dir)
  else
    let (ok, d') := sync tmpSibling isServiceFile r.faults (r.staged t) (dir.getD fun _ => none)
    (if ok then .ok () else .error .io, some d')

/-! ## A service file as a document -/

/-- Up to the comment. -/
def headTokens : List Token :=
  [.markup "?xml version=\"1.0\" standalone='no'?".toList, .text "\n".toList,
    .markup "!DOCTYPE service-group SYSTEM \"avahi-service.dtd\"".toList, .text "\n".toList]

/-- The comment. -/
def commentText (name : Str) : Str :=
  " Generated from nfs-klldap.conf share \"".toList ++ xmlEscape name ++
    "\"; edits are overwritten. ".toList

/-- From the comment to the name. -/
def groupTokens : List Token :=
  [.text "\n".toList, .markup "service-group".toList, .text "\n  ".toList,
    .markup "name replace-wildcards=\"yes\"".toList]

/-- From the name to the host. -/
def serviceTokens : List Token :=
  [.markup "/name".toList, .text "\n  ".toList, .markup "service".toList, .text "\n    ".toList,
    .markup "type".toList, .text "_nfs._tcp".toList, .markup "/type".toList]

/-- The element for the host, if its name has a dot. -/
def hostTokens (host : Str) : List Token :=
  if '.' ∈ host then
    [.text "\n    ".toList, .markup "host-name".toList, .text (xmlEscape host),
      .markup "/host-name".toList]
  else []

/-- From the host to the path. -/
def portTokens : List Token :=
  [.text "\n    ".toList, .markup "port".toList, .text "2049".toList, .markup "/port".toList,
    .text "\n    ".toList, .markup "txt-record".toList]

/-- Behind the path. -/
def tailTokens : List Token :=
  [.markup "/txt-record".toList, .text "\n  ".toList, .markup "/service".toList, .text "\n".toList,
    .markup "/service-group".toList, .text "\n".toList]

/-- What follows the comment. -/
def bodyTokens (host name pseudo : Str) : List Token :=
  groupTokens ++ .text (escape (name ++ " on %h".toList)) :: (serviceTokens ++ (hostTokens host ++
    (portTokens ++ .text (escape ("path=".toList ++ pseudo)) :: tailTokens)))

/-- The lines around the host line. -/
theorem newline_hostLine (host : Str) : "\n".toList ++ (hostLine host ++ "    ".toList) =
    render (hostTokens host) ++ "\n    ".toList := by
  delta hostLine hostTokens
  split
  · have hopen : "\n".toList ++ "    <host-name>".toList =
        render [.text "\n    ".toList, .markup "host-name".toList] := by decide +kernel
    have hclose : "</host-name>\n".toList ++ "    ".toList =
        render [.markup "/host-name".toList] ++ "\n    ".toList := by decide +kernel
    have hrender : render [.text "\n    ".toList, .markup "host-name".toList,
        .text (xmlEscape host), .markup "/host-name".toList] =
          render [.text "\n    ".toList, .markup "host-name".toList] ++
            (xmlEscape host ++ render [.markup "/host-name".toList]) := rfl
    rw [hrender, List.append_assoc, List.append_assoc, hclose, ← List.append_assoc, hopen]
    simp only [List.append_assoc]
  · rfl

/-- A service file is written token by token. -/
theorem serviceText_eq (host name pseudo : Str) : serviceText host name pseudo =
    render headTokens ++ ((Token.comment (commentText name)).render ++
      render (bodyTokens host name pseudo)) := by
  -- the fixed pieces of the text are closed, and are compared by evaluation
  have hhead : "<?xml version=\"1.0\" standalone='no'?>\n".toList ++
      "<!DOCTYPE service-group SYSTEM \"avahi-service.dtd\">\n".toList ++
        "<!-- Generated from nfs-klldap.conf share \"".toList =
      render headTokens ++ ("<!--".toList ++ " Generated from nfs-klldap.conf share \"".toList) := by
    decide +kernel
  have hgroup : "\"; edits are overwritten. -->\n<service-group>\n".toList ++
      "  <name replace-wildcards=\"yes\">".toList =
      "\"; edits are overwritten. ".toList ++ ("-->".toList ++ render groupTokens) := by
    decide +kernel
  have hservice : " on %h</name>\n  <service>\n    <type>_nfs._tcp</type>\n".toList =
      escape " on %h".toList ++ (render serviceTokens ++ "\n".toList) := by decide +kernel
  have hport : "    <port>2049</port>\n    <txt-record>path=".toList =
      "    ".toList ++ ("<port>2049</port>\n    <txt-record>".toList ++ escape "path=".toList) := by
    decide +kernel
  have hport' : render portTokens =
      "\n    ".toList ++ "<port>2049</port>\n    <txt-record>".toList := by decide +kernel
  have htail : "</txt-record>\n  </service>\n</service-group>\n".toList = render tailTokens := by
    decide +kernel
  -- the comment and the body hold the name and are put together symbolically
  have hcomment : (Token.comment (commentText name)).render = "<!--".toList ++
      (" Generated from nfs-klldap.conf share \"".toList ++ (xmlEscape name ++
        ("\"; edits are overwritten. ".toList ++ "-->".toList))) := by
    delta commentText
    rw [Token.render]
    simp only [List.append_assoc]
  have hbody : render (bodyTokens host name pseudo) = render groupTokens ++
      (escape (name ++ " on %h".toList) ++ (render serviceTokens ++ (render (hostTokens host) ++
        (render portTokens ++ (escape ("path=".toList ++ pseudo) ++ render tailTokens))))) := by
    simp only [bodyTokens, render, List.flatMap_append, List.flatMap_cons, Token.render]
  have hline : ∀ rest, "\n".toList ++ (hostLine host ++ ("    ".toList ++ rest)) =
      render (hostTokens host) ++ ("\n    ".toList ++ rest) := by
    intro rest
    have h := congrArg (· ++ rest) (newline_hostLine host)
    simpa only [List.append_assoc] using h
  -- a rewrite would unfold the text's own literals; `delta` leaves them as they are
  delta serviceText
  rw [String.toList_append, String.toList_append, String.toList_append, hhead, hgroup, hservice,
    hport, htail, hcomment, hbody, hport', escape_append, escape_append]
  simp only [List.append_assoc, hline]
  rfl

/-- What a service file says up to the host. -/
def headEvents (name : Str) : List Xml.Event :=
  [.declaration, .text "\n".toList, .doctype, .text "\n".toList, .comment, .text "\n".toList,
    .opening "service-group".toList, .text "\n  ".toList, .opening "name".toList,
    .text (name ++ " on %h".toList), .closing "name".toList, .text "\n  ".toList,
    .opening "service".toList, .text "\n    ".toList, .opening "type".toList,
    .text "_nfs._tcp".toList, .closing "type".toList]

/-- What a reader finds of the host. -/
def hostEvents (host : Str) : List Xml.Event :=
  if '.' ∈ host then
    [.text "\n    ".toList, .opening "host-name".toList, .text host, .closing "host-name".toList]
  else []

/-- What it says behind the host. -/
def tailEvents (pseudo : Str) : List Xml.Event :=
  [.text "\n    ".toList, .opening "port".toList, .text "2049".toList, .closing "port".toList,
    .text "\n    ".toList, .opening "txt-record".toList, .text ("path=".toList ++ pseudo),
    .closing "txt-record".toList, .text "\n  ".toList, .closing "service".toList,
    .text "\n".toList, .closing "service-group".toList, .text "\n".toList]

/-- What a reader finds in the text of a service. -/
def serviceEvents (host name pseudo : Str) : List Xml.Event :=
  headEvents name ++ (hostEvents host ++ tailEvents pseudo)

/-- The tokens of a service are read as its events. -/
theorem map_event (host name pseudo : Str) :
    (headTokens ++ .comment (commentText name) :: bodyTokens host name pseudo).map Token.event =
      (serviceEvents host name pseudo).map some := by
  -- the fixed pieces are evaluated, what is escaped is read back by its lemma
  have hhead : headTokens.map Token.event = [.declaration, .text "\n".toList, .doctype,
      .text "\n".toList].map some := by decide +kernel
  have hgroup : groupTokens.map Token.event = [.text "\n".toList, .opening "service-group".toList,
      .text "\n  ".toList, .opening "name".toList].map some := by decide +kernel
  have hservice : serviceTokens.map Token.event = [.closing "name".toList, .text "\n  ".toList,
      .opening "service".toList, .text "\n    ".toList, .opening "type".toList,
      .text "_nfs._tcp".toList, .closing "type".toList].map some := by decide +kernel
  have hport : portTokens.map Token.event = [.text "\n    ".toList, .opening "port".toList,
      .text "2049".toList, .closing "port".toList, .text "\n    ".toList,
      .opening "txt-record".toList].map some := by decide +kernel
  have htail : tailTokens.map Token.event = [.closing "txt-record".toList, .text "\n  ".toList,
      .closing "service".toList, .text "\n".toList, .closing "service-group".toList,
      .text "\n".toList].map some := by decide +kernel
  have hhost : (hostTokens host).map Token.event = (hostEvents host).map some := by
    have hspace : (Token.text "\n    ".toList).event = some (.text "\n    ".toList) := by
      decide +kernel
    have hopen : (Token.markup "host-name".toList).event = some (.opening "host-name".toList) := by
      decide +kernel
    have hclose : (Token.markup "/host-name".toList).event =
        some (.closing "host-name".toList) := by decide +kernel
    delta hostTokens hostEvents
    split
    · simp only [xmlEscape, List.map_cons, List.map_nil, hspace, hopen, event_escape, hclose]
    · rfl
  have hcomment : (Token.comment (commentText name)).event = some .comment := rfl
  delta bodyTokens
  simp only [List.map_append, List.map_cons, hhead, hgroup, hservice, hport, htail, hhost, hcomment,
    event_escape]
  delta serviceEvents headEvents tailEvents
  simp only [List.map_append, List.map_cons, List.cons_append, List.nil_append, List.map_nil]

/-- The elements of a service file. -/
theorem readEvents_serviceEvents (host name pseudo : Str) : ∃ elements,
    readEvents [] false (dropDeclaration (serviceEvents host name pseudo)) = some elements ∧
      elements.filter (fun e => e.1 = "txt-record".toList) =
        [("txt-record".toList, "path=".toList ++ pseudo)] := by
  delta serviceEvents hostEvents
  by_cases h : '.' ∈ host
  · rw [if_pos h]
    exact ⟨_, rfl, rfl⟩
  · rw [if_neg h]
    exact ⟨_, rfl, rfl⟩

/-- What a share and the host must be like for a service file to be a document. -/
structure ServiceTextOk (host name pseudo : Str) : Prop where
  /-- No two dashes follow each other in the name, which stands in a comment. -/
  dashes : doubleDash name = false
  name : name.all isXmlChar = true
  pseudo : pseudo.all isXmlChar = true
  host : '.' ∈ host → host.all isXmlChar = true

/-- The text has XML characters only, exactly when what is put into it has. -/
theorem all_serviceText (host name pseudo : Str) : (serviceText host name pseudo).all isXmlChar =
    (name.all isXmlChar && (!decide ('.' ∈ host) || host.all isXmlChar) && pseudo.all isXmlChar) := by
  have hline : (hostLine host).all isXmlChar =
      (!decide ('.' ∈ host) || host.all isXmlChar) := by
    have hopen : "    <host-name>".toList.all isXmlChar = true := by decide +kernel
    have hclose : "</host-name>\n".toList.all isXmlChar = true := by decide +kernel
    delta hostLine
    by_cases h : '.' ∈ host
    · rw [if_pos h, List.all_append, List.all_append, hopen, hclose, xmlEscape,
        all_isXmlChar_escape]
      simp [h]
    · rw [if_neg h]
      simp [h]
  have hfixed : [("<?xml version=\"1.0\" standalone='no'?>\n" ++
      "<!DOCTYPE service-group SYSTEM \"avahi-service.dtd\">\n" ++
      "<!-- Generated from nfs-klldap.conf share \"").toList,
      ("\"; edits are overwritten. -->\n<service-group>\n" ++
      "  <name replace-wildcards=\"yes\">").toList,
      " on %h</name>\n  <service>\n    <type>_nfs._tcp</type>\n".toList,
      "    <port>2049</port>\n    <txt-record>path=".toList,
      "</txt-record>\n  </service>\n</service-group>\n".toList].map (List.all · isXmlChar) =
      [true, true, true, true, true] := by decide +kernel
  simp only [List.map_cons, List.map_nil, List.cons.injEq, and_true] at hfixed
  obtain ⟨h1, h2, h3, h4, h5⟩ := hfixed
  delta serviceText
  simp only [List.all_append, h1, h2, h3, h4, h5, hline, xmlEscape, all_isXmlChar_escape]
  cases name.all isXmlChar <;> simp

/-- Only the name can bring a double dash into the comment. -/
theorem doubleDash_commentText (name : Str) :
    doubleDash (commentText name) = doubleDash name ∧
      doubleDash (commentText name ++ ['-']) = doubleDash name := by
  have hbefore : " Generated from nfs-klldap.conf share \"".toList =
      " Generated from nfs-klldap.conf share ".toList ++ ['"'] := by decide +kernel
  have hbehind : "\"; edits are overwritten. ".toList =
      '"' :: "; edits are overwritten. ".toList := by decide +kernel
  have hdashes : doubleDash " Generated from nfs-klldap.conf share ".toList = false ∧
      doubleDash "; edits are overwritten. ".toList = false ∧
      doubleDash ("; edits are overwritten. ".toList ++ ['-']) = false := by decide +kernel
  have hquote : '"' ≠ '-' := by decide
  obtain ⟨h1, h2, h3⟩ := hdashes
  delta commentText
  constructor
  · rw [hbefore, hbehind, List.append_assoc, List.append_assoc, List.singleton_append,
      doubleDash_append_cons hquote, doubleDash_append_cons hquote, xmlEscape, doubleDash_escape,
      h1, h2, Bool.false_or, Bool.or_false]
  · rw [hbefore, hbehind, List.append_assoc, List.append_assoc, List.append_assoc,
      List.singleton_append, doubleDash_append_cons hquote, List.cons_append,
      doubleDash_append_cons hquote, xmlEscape, doubleDash_escape, h1, h3, Bool.false_or,
      Bool.or_false]

/-- The tokens of a service file are scanned again, unless the comment is cut short. -/
theorem scannable_tokens (host name pseudo : Str) :
    (∀ t ∈ headTokens, t.Scannable) ∧ (∀ t ∈ bodyTokens host name pseudo, t.Scannable) ∧
      Alternating (headTokens ++ .comment (commentText name) :: bodyTokens host name pseudo) =
        true := by
  have hfixed : (∀ t ∈ headTokens, t.Scannable) ∧ (∀ t ∈ groupTokens, t.Scannable) ∧
      (∀ t ∈ serviceTokens, t.Scannable) ∧ (∀ t ∈ portTokens, t.Scannable) ∧
      ∀ t ∈ tailTokens, t.Scannable := by decide +kernel
  obtain ⟨hhead, hgroup, hservice, hport, htail⟩ := hfixed
  -- an escaped text is empty only if the text is, and has no sign of markup
  have htext : ∀ s, s ≠ [] → (Token.text (escape s)).Scannable := by
    intro s hs
    refine ⟨fun hnil => hs ?_, (not_mem_escape s).1⟩
    have h := unescape_escape s
    rw [hnil] at h
    exact (Option.some.inj h).symm
  have hhost : ∀ t ∈ hostTokens host, t.Scannable := by
    have hspace : (Token.text "\n    ".toList).Scannable := by decide +kernel
    have hopen : (Token.markup "host-name".toList).Scannable := by decide +kernel
    have hclose : (Token.markup "/host-name".toList).Scannable := by decide +kernel
    delta hostTokens
    split
    · next hdot =>
      simp only [List.forall_mem_cons]
      exact ⟨hspace, hopen, htext host (List.ne_nil_of_mem hdot), hclose, by simp⟩
    · simp
  refine ⟨hhead, ?_, ?_⟩
  · delta bodyTokens
    simp only [List.forall_mem_append, List.forall_mem_cons]
    exact ⟨hgroup, htext _ (by simp), hservice, hhost, hport, htext _ (by simp), htail⟩
  · delta bodyTokens hostTokens
    split <;> rfl

/-- **When a service file is a document**, it says the Pseudo path of its share and no other. -/
theorem readXml_serviceText {host name pseudo : Str} (h : ServiceTextOk host name pseudo) :
    ∃ elements, readXml (serviceText host name pseudo) = some elements ∧
      elements.filter (fun e => e.1 = "txt-record".toList) =
        [("txt-record".toList, "path=".toList ++ pseudo)] := by
  obtain ⟨hhead, hbody, halt⟩ := scannable_tokens host name pseudo
  have htext : serviceText host name pseudo =
      render (headTokens ++ .comment (commentText name) :: bodyTokens host name pseudo) := by
    rw [serviceText_eq, render_append]
    rfl
  have hchars : (serviceText host name pseudo).all isXmlChar = true := by
    have hhost : (!decide ('.' ∈ host) || host.all isXmlChar) = true := by
      by_cases hdot : '.' ∈ host
      · rw [h.host hdot, Bool.or_true]
      · simp [hdot]
    rw [all_serviceText, h.name, h.pseudo, hhost]
    rfl
  have hcomment : (Token.comment (commentText name)).Scannable :=
    (doubleDash_commentText name).2.trans h.dashes
  obtain ⟨elements, hread, hpath⟩ := readEvents_serviceEvents host name pseudo
  refine ⟨elements, ?_, hpath⟩
  rw [htext] at hchars ⊢
  rw [readXml_render (List.forall_mem_append.mpr ⟨hhead, List.forall_mem_cons.mpr
    ⟨hcomment, hbody⟩⟩) halt hchars (map_event host name pseudo), hread]

/-- A text that can be read is made of names that fit. -/
theorem serviceTextOk_of_readXml {host name pseudo : Str}
    (h : readXml (serviceText host name pseudo) ≠ none) : ServiceTextOk host name pseudo := by
  obtain ⟨hhead, -, halt⟩ := scannable_tokens host name pseudo
  have hchars : (serviceText host name pseudo).all isXmlChar = true := by
    by_contra hnot
    exact h (if_neg hnot)
  have hdashes : doubleDash name = false := by
    by_contra hdash
    rw [Bool.not_eq_false] at hdash
    have hgt : '>' ∉ commentText name := by
      have hfixed : '>' ∉ " Generated from nfs-klldap.conf share \"".toList ∧
          '>' ∉ "\"; edits are overwritten. ".toList := by decide +kernel
      delta commentText
      rw [List.mem_append, List.mem_append, not_or, not_or]
      exact ⟨⟨hfixed.1, (not_mem_escape name).2⟩, hfixed.2⟩
    have hscan := scan_render_none hhead (by decide)
      ((doubleDash_commentText name).1.trans hdash) hgt (render (bodyTokens host name pseudo))
    refine h ?_
    rw [readXml, if_pos hchars, serviceText_eq, hscan]
    rfl
  rw [all_serviceText, Bool.and_eq_true, Bool.and_eq_true] at hchars
  obtain ⟨⟨hname, hhost⟩, hpseudo⟩ := hchars
  exact ⟨hdashes, hname, hpseudo, fun hdot => by simpa [hdot] using hhost⟩

/-! ## One run -/

/-- Two services have one file exactly when their names are sanitised to the same. -/
theorem serviceFileName_injective {t : CharTable} {a b : Str} :
    serviceFileName t a = serviceFileName t b ↔ sanitizeName t a = sanitizeName t b := by
  rw [serviceFileName, serviceFileName, List.append_cancel_left_eq, List.append_cancel_right_eq]

/-- The file of a service is recognised as one. -/
theorem isServiceFile_serviceFileName (t : CharTable) (name : Str) :
    isServiceFile (serviceFileName t name) = true := by
  rw [isServiceFile, Bool.and_eq_true, List.isPrefixOf_iff_prefix, List.isSuffixOf_iff_suffix]
  exact ⟨⟨_, rfl⟩, ⟨navahiPrefix ++ sanitizeName t name, by rw [List.append_assoc]; rfl⟩⟩

/-- A temporary file is not taken for the file of a service. -/
theorem not_isServiceFile_tmpSibling (name : Str) : isServiceFile (tmpSibling name) = false := by
  rw [isServiceFile, not_isSuffixOf_tmpSibling (by decide) (by decide), Bool.and_false]

section Run

variable {t : CharTable} {r : AvahiRun} {d : TextDir}

/-- The files of the advertised shares. -/
def AvahiRun.names (t : CharTable) (r : AvahiRun) : List Str :=
  r.advertised.map fun s => serviceFileName t s.name

/-- The files of a run have the names of its services. -/
theorem AvahiRun.map_fst_staged (t : CharTable) (r : AvahiRun) :
    (r.staged t).map Prod.fst = r.names t := by
  rw [AvahiRun.staged, List.map_map]
  rfl

/-- The directory after a run on one that is there. -/
def afterAvahi (t : CharTable) (d : TextDir) (r : AvahiRun) : TextDir :=
  (writeAvahiServices t r (some d)).2.getD d

/-- A run that succeeds is a run over the staged files. -/
theorem writeAvahiServices_eq_ok (h : (writeAvahiServices t r (some d)).1 = .ok ()) :
    (sync tmpSibling isServiceFile r.faults (r.staged t) d).1 = true ∧
      afterAvahi t d r = (sync tmpSibling isServiceFile r.faults (r.staged t) d).2 := by
  have hsome : (!r.cfg.navahiDiscovery && (some d).isNone) = false := by simp
  rw [afterAvahi]
  unfold writeAvahiServices at h ⊢
  rw [hsome] at h ⊢
  cases hc : r.created with
  | false => simp [hc] at h
  | true =>
    simp only [hc, Bool.not_true, Bool.false_eq_true, if_false, Option.getD_some] at h ⊢
    refine ⟨?_, trivial⟩
    by_contra hfail
    rw [if_neg hfail] at h
    exact absurd h (by simp)

/-- **The directory advertises the shares**: each advertised share has a service file of its own,
which is a document with the Pseudo path of the share in its record, there are no other service
files, and the other files are as they were. -/
structure Advertises (t : CharTable) (r : AvahiRun) (d d' : TextDir) : Prop where
  names : (r.names t).Nodup
  files : ∀ name, isServiceFile name = true → (d' name ≠ none ↔ name ∈ r.names t)
  documents : ∀ s ∈ r.advertised, ∃ text elements, d' (serviceFileName t s.name) = some text ∧
    readXml text = some elements ∧ elements.filter (fun e => e.1 = "txt-record".toList) =
      [("txt-record".toList, "path=".toList ++ deriveSharePseudo s)]
  others : ∀ name, isServiceFile name = false → d' name = d name

/-- What can be advertised: the sanitised names differ, the texts are documents, stale service files
can be removed, and nothing lies under a temporary name. -/
structure Advertisable (t : CharTable) (r : AvahiRun) (d : TextDir) : Prop where
  names : (r.advertised.map fun s => sanitizeName t s.name).Nodup
  texts : ∀ s ∈ r.advertised, ServiceTextOk r.host s.name (deriveSharePseudo s)
  stale : ∀ name, isServiceFile name = true → name ∉ r.names t → d name ≠ none →
    r.faults.removable name = true
  temps : ∀ name ∈ r.names t, d (tmpSibling name) = none

/-- The files are different when the names are sanitised to different ones. -/
theorem nodup_names_iff : (r.names t).Nodup ↔
    (r.advertised.map fun s => sanitizeName t s.name).Nodup := by
  simp only [AvahiRun.names, List.Nodup, List.pairwise_map]
  exact List.Pairwise.iff fun a b => not_congr serviceFileName_injective

/-- **A successful run advertises the shares** exactly when they can be advertised. -/
theorem advertises_iff (h : (writeAvahiServices t r (some d)).1 = .ok ()) :
    Advertises t r d (afterAvahi t d r) ↔ Advertisable t r d := by
  obtain ⟨hok, heq⟩ := writeAvahiServices_eq_ok h
  have hnames := r.map_fst_staged t
  have hservice : ∀ name ∈ r.names t, isServiceFile name = true := by
    intro name hname
    obtain ⟨s, -, rfl⟩ := List.mem_map.mp hname
    exact isServiceFile_serviceFileName t s.name
  have hapart : Apart tmpSibling ((r.staged t).map Prod.fst) := by
    intro a ha b hb hab
    rw [hnames] at hb
    have hb' := hservice b hb
    rw [← hab, not_isServiceFile_tmpSibling] at hb'
    exact absurd hb' Bool.false_ne_true
  have hexact := sync_exact_iff (fun name => isServiceFile name = true) hapart
    (by rw [hnames]; exact hservice)
    (fun a _ => by rw [not_isServiceFile_tmpSibling]; exact Bool.false_ne_true)
    (fun _ ha => ha) hok
  rw [← heq, hnames] at hexact
  have hin : ∀ name, latest (r.staged t) name ≠ none ↔ name ∈ r.names t := by
    intro name
    rw [← hnames, ne_eq, latest_eq_none_iff, not_not]
  -- what lies under the name of a share, when the names differ
  have hlatest : (r.names t).Nodup → ∀ s ∈ r.advertised,
      latest (r.staged t) (serviceFileName t s.name) =
        some (serviceText r.host s.name (deriveSharePseudo s)) := by
    intro hnodup s hs
    have hmem : (serviceFileName t s.name, serviceText r.host s.name (deriveSharePseudo s)) ∈
        r.staged t := List.mem_map.mpr ⟨s, hs, rfl⟩
    exact latest_eq_some (by rw [hnames]; exact hnodup) hmem
  constructor
  · rintro ⟨hnodup, hfiles, hdocuments, hothers⟩
    have hwritten : ∀ name, latest (r.staged t) name ≠ none →
        afterAvahi t d r name = latest (r.staged t) name := by
      intro name hname
      obtain ⟨text, htext⟩ := Option.ne_none_iff_exists'.mp hname
      rw [heq, sync_eq hapart hok, htext]
      rfl
    have hall : ∀ name, isServiceFile name = true →
        afterAvahi t d r name = latest (r.staged t) name := by
      intro name hk
      by_cases hname : latest (r.staged t) name = none
      · have hgone := not_iff_not.mpr ((hfiles name hk).trans (hin name).symm)
        rw [not_not, not_not] at hgone
        rw [hname, hgone.mpr hname]
      · exact hwritten name hname
    obtain ⟨hstale, htemps⟩ := hexact.mp ⟨hall, fun name hk => hothers name (by simpa using hk)⟩
    refine ⟨nodup_names_iff.mp hnodup, fun s hs => ?_,
      fun name hk hnot hd => (hstale name hk hnot hd).2, htemps⟩
    obtain ⟨text, elements, htext, hread, -⟩ := hdocuments s hs
    rw [hall _ (isServiceFile_serviceFileName t s.name), hlatest hnodup s hs] at htext
    obtain rfl := Option.some.inj htext
    exact serviceTextOk_of_readXml (by rw [hread]; exact Option.some_ne_none _)
  · rintro ⟨hnodup, htexts, hstale, htemps⟩
    obtain ⟨hfiles, hothers⟩ := hexact.mpr
      ⟨fun name hk hnot hd => ⟨hk, hstale name hk hnot hd⟩, htemps⟩
    have hnodup' := nodup_names_iff.mpr hnodup
    refine ⟨hnodup', fun name hk => ?_, fun s hs => ?_, fun name hk => hothers name (by simp [hk])⟩
    · rw [hfiles name hk, hin]
    · obtain ⟨elements, hread, hpath⟩ := readXml_serviceText (htexts s hs)
      refine ⟨_, elements, ?_, hread, hpath⟩
      rw [hfiles _ (isServiceFile_serviceFileName t s.name), hlatest hnodup' s hs]

end Run

/-! ## Sequences of runs -/

/-- **The service directory over a sequence of runs**: every successful run leaves one document for
every advertised share, and touches no other file, exactly when every successful run finds that they
can be advertised. -/
theorem avahi_advertises_iff (t : CharTable) (d : TextDir) (runs : List AvahiRun) :
    EveryStep (afterAvahi t) (fun d r => (writeAvahiServices t r (some d)).1 = .ok () →
        Advertises t r d (afterAvahi t d r)) d runs ↔
      EveryStep (afterAvahi t) (fun d r => (writeAvahiServices t r (some d)).1 = .ok () →
        Advertisable t r d) d runs := by
  apply everyStep_congr
  intro d r
  constructor
  · exact fun h hok => (advertises_iff hok).mp (h hok)
  · exact fun h hok => (advertises_iff hok).mpr (h hok)

/-- Without discovery nothing is advertised. -/
theorem advertised_of_off {r : AvahiRun} (h : r.cfg.navahiDiscovery = false) :
    r.advertised = [] := by
  rw [AvahiRun.advertised, List.filter_eq_nil_iff]
  intro s _
  rw [shareNavahiEffective, h]
  exact Bool.false_ne_true

/-- Then a successful run leaves no service file, if it can remove those that are there. -/
theorem no_serviceFile_of_off {t : CharTable} {r : AvahiRun} {d : TextDir}
    (hoff : r.cfg.navahiDiscovery = false) (h : (writeAvahiServices t r (some d)).1 = .ok ())
    (hstale : ∀ name, isServiceFile name = true → d name ≠ none → r.faults.removable name = true)
    {name : Str} (hname : isServiceFile name = true) : afterAvahi t d r name = none := by
  have hnone := advertised_of_off hoff
  have hnames : r.names t = [] := by rw [AvahiRun.names, hnone]; rfl
  have hcan : Advertisable t r d :=
    { names := by rw [hnone]; exact List.nodup_nil
      texts := by rw [hnone]; exact fun s hs => absurd hs List.not_mem_nil
      stale := fun name hk _ hd => hstale name hk hd
      temps := by rw [hnames]; exact fun a ha => absurd ha List.not_mem_nil }
  by_contra hthere
  have hmem := (((advertises_iff h).mpr hcan).files name hname).mp hthere
  rw [hnames] at hmem
  exact absurd hmem List.not_mem_nil

/-! ## Two shares with one service file -/

/-- Two advertised shares whose names differ in a space and a dash. -/
def collidingConfig : NfsKlldapConfig :=
  { labConfig [{ labShare "my files" "/export/a" "/a" with navahiInsecure := some true },
      { labShare "my-files" "/export/b" "/b" with navahiInsecure := some true }] with
    navahiDiscovery := true }

/-- A run in which nothing goes wrong. -/
def collidingRun : AvahiRun := ⟨collidingConfig, none, true, .none⟩

/-- The second share overwrites the service file of the first. -/
theorem not_avahi_advertises_colliding : validateAndDerive .ascii collidingConfig = .ok collidingConfig ∧
    ¬ EveryStep (afterAvahi .plain) (fun d r => (writeAvahiServices .plain r (some d)).1 = .ok () →
        Advertises .plain r d (afterAvahi .plain d r)) (fun _ => none) [collidingRun] := by
  have hvalid : (validateAndDerive .ascii collidingConfig).toOption = some collidingConfig := by
    decide +kernel
  refine ⟨toOption_eq_some_iff.mp hvalid, ?_⟩
  rintro ⟨hrun, -⟩
  have hok : (writeAvahiServices .plain collidingRun (some fun _ => none)).1 = .ok () := by
    have hsync : (sync tmpSibling isServiceFile Faults.none (collidingRun.staged .plain)
        fun _ => none).1 = true := sync_none_ok _ _
    rw [writeAvahiServices, if_neg (by decide), if_neg (by decide)]
    exact if_pos (e := .error .io) hsync
  have hnodup := ((advertises_iff hok).mp (hrun hok)).names
  have hone : ¬ (collidingRun.advertised.map fun s => sanitizeName .plain s.name).Nodup := by
    decide +kernel
  exact hone hnodup

end NfsKlldap
