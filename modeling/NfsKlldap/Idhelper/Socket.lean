import NfsKlldap.Idhelper.CacheFile
import NfsKlldap.Idhelper.RealmGuard

/-! # The socket of the idhelper (`daemon.rs`, `ganesha_readiness.rs`, `main.rs`)

A client writes one line and reads one line back. The daemon takes the line apart into a verb and an
argument and answers with the fields of what it found, between bars; the client takes the answer apart
again. Nothing is escaped on the way, in either direction.

* **`handleClient`** — the daemon's side of an exchange;
* **`socketCmdGids`**, **`tryResolveViaSocket`** — the clients' side;
* **`parseGrpsOutput`** — what the health check reads out of the command line tool;
* **`SocketAgrees`** — a client ends up with what the daemon found;
* **`socket_agrees`** — and so it does for every principal on one line: groups arrive as they are, and
  an identity arrives unless its principal has a bar in it, when nothing does. -/

namespace NfsKlldap

open Text

/-! ## The daemon (`handle_client`) -/

/-- The line that `read_line` gets out of what was sent. -/
def readLine (s : Str) : Str := before '\n' s

/-- `RESOLVE_ERR_UNRESOLVED` -/
def resolveErrUnresolved : Str := "ERR unresolved principal\n".toList

/-- The reply to a request without a principal. -/
def errMissingPrincipal : Str := "ERR missing principal\n".toList

/-- Gids between bars. -/
def gidList (gids : List UInt32) : Str := ['|'].intercalate (gids.map decimal)

/-- The answer to a group request. -/
def gidsReply (q : Str) (gids : List UInt32) : Str :=
  if gids = [] ∧ '@' ∈ q then resolveErrUnresolved
  else "OK ".toList ++ gidList gids ++ ['\n']

/-- The verb and the argument of a request. -/
def requestParts (req : Str) : Str × Str :=
  (toAsciiUppercase (before ' ' req), trim (((splitOnce ' ' req).map Prod.snd).getD []))

section Daemon

variable {σ : Type*} (env : Env σ) (rebulk : World σ → Option Nat × World σ) (realm : Str)
  (variants : List Str)

/-- The answer to a verb with its argument. -/
def answerVerb (verb arg : Str) (w : World σ) : Str × World σ :=
  if verb = "PING".toList then ("OK\n".toList, w)
  else if verb = "CLASSIFY".toList then
    if arg = [] then (errMissingPrincipal, w)
    else
      let c := classifyPrincipal arg realm variants
      ("OK ".toList ++ (if c.1 then "machine".toList else "user".toList) ++ '|' :: c.2.text ++ ['\n'], w)
  else if verb = "RESOLVE".toList then
    if arg = [] then (errMissingPrincipal, w)
    else
      let r := resolvePrincipal env realm variants arg w
      (formatResolveSocketLine r.1, r.2)
  else if verb = "REBULK".toList then
    match rebulk w with
    | (some n, w) => ("OK ".toList ++ natDecimal n ++ ['\n'], w)
    | (none, w) => ("ERR rebulk failed\n".toList, w)
  else if verb = "GRPS".toList then
    if arg = [] then (errMissingPrincipal, w)
    else
      let gs := resolveGidsAndMaterialize env realm variants arg false w
      (gidsReply arg gs.1, gs.2)
  else if verb = "GROUPLIST".toList ∨ verb = "GETGROUPLIST".toList then
    let q := if arg = [] then "root".toList else arg
    let gs := resolveGidsAndMaterialize env realm variants q false w
    (gidsReply q gs.1, gs.2)
  else ("ERR unknown command\n".toList, w)

/-- A blank request gets no answer. -/
def handleClient (sent : Str) (w : World σ) : Str × World σ :=
  let req := trim (readLine sent)
  if req = [] then ([], w)
  else answerVerb env rebulk realm variants (requestParts req).1 (requestParts req).2 w

end Daemon

/-! ## The clients -/

/-- What a client sends. -/
def requestLine (cmd principal : Str) : Str := cmd ++ ' ' :: principal ++ ['\n']

/-- `idhelper_socket_request`: the first line of the answer, trimmed. -/
def socketResponse (reply : Str) : Str := trim (readLine reply)

/-- What stands behind `OK `. -/
def stripOk (resp : Str) : Option Str :=
  if startsWith resp "OK " then some (resp.drop 3) else none

/-- `socket_cmd_gids`, behind the exchange. -/
def socketCmdGids (resp : Str) : Option (List UInt32) :=
  (stripOk resp).bind fun rest =>
    let gids := (rest.splitOn '|').filterMap fun s => parseU32 (trim s)
    if gids = [] then none else some gids

/-- `try_resolve_via_socket`, behind the exchange. -/
def tryResolveViaSocket (resp : Str) : Option Resolved :=
  (stripOk resp).bind fun rest =>
    match rest.splitOn '|' with
    | [principal, uid, gid, kind, source] =>
      match parseU32 uid, parseU32 gid with
      | some uid, some gid =>
        some ⟨principal, principalLocalPart principal, uid, gid, .ofStr kind, source, []⟩
      | _, _ => none
    | _ => none

/-- What the command line prints for `grps`; nothing when it fails. -/
def cliGrps (p : Str) (gids : List UInt32) : Option Str :=
  if gids = [] ∧ '@' ∈ p then none else some ("OK ".toList ++ gidList gids ++ ['\n'])

/-- `parse_grps_output` -/
def parseGrpsOutput (stdout : Str) : List UInt32 :=
  let s := trim stdout
  (((stripOk s).getD s).splitOnP fun c => c = '|' || c = ' ' || c = ',').filterMap fun t =>
    parseU32 (trim t)

/-! ## Requests arrive -/

/-- A principal that can be asked for: it is on one line and not blank. -/
structure SocketPrincipal where
  text : Str
  line : '\n' ∉ text
  visible : trim text ≠ []

/-- A word that is sent as a verb. -/
structure SocketVerb where
  word : Str
  upper : toAsciiUppercase word = word
  letters : word.all (fun c => !isWhitespace c) = true
  nonempty : word ≠ []

/-- A verb has no white characters. -/
theorem SocketVerb.not_white (v : SocketVerb) {c : Char} (h : c ∈ v.word) : isWhitespace c = false := by
  simpa using List.all_eq_true.mp v.letters c h

/-- A line is read up to its end. -/
theorem readLine_append {s : Str} (h : '\n' ∉ s) : readLine (s ++ ['\n']) = s :=
  before_append [] h

/-- What `trim` takes off is white space on both sides. -/
theorem exists_eq_trim_between (s : Str) : ∃ a b, s = a ++ trim s ++ b ∧
    (∀ c ∈ a, isWhitespace c = true) ∧ ∀ c ∈ b, isWhitespace c = true := by
  have hfront : s = s.takeWhile isWhitespace ++ s.dropWhile isWhitespace :=
    (List.takeWhile_append_dropWhile).symm
  refine ⟨s.takeWhile isWhitespace, (s.dropWhile isWhitespace).rtakeWhile isWhitespace, ?_,
    fun c hc => List.mem_takeWhile_imp hc, fun c hc => List.mem_rtakeWhile_imp hc⟩
  rw [List.append_assoc, trim, List.rdropWhile_append_rtakeWhile]
  exact hfront

/-- Blanks in front of a text are trimmed. -/
theorem trim_blank_append {a : Str} (ha : ∀ c ∈ a, isWhitespace c = true) (s : Str) :
    trim (a ++ s) = trim s := by
  induction a with
  | nil => rfl
  | cons c a ih =>
    rw [List.forall_mem_cons] at ha
    rw [List.cons_append, trim_white_cons ha.1, ih ha.2]

/-- A text between something printable on both sides is left alone. -/
theorem trim_eq_self_of_ends {s u t : Str} (hs : s ≠ []) (hshead : ∀ c ∈ s.head?, isWhitespace c = false)
    (ht : t ≠ []) (htlast : ∀ c ∈ t.getLast?, isWhitespace c = false) : trim (s ++ u ++ t) = s ++ u ++ t := by
  refine trim_eq_self (fun c hc => hshead c ?_) (fun c hc => htlast c ?_)
  · rwa [List.append_assoc, List.head?_append_of_ne_nil _ hs] at hc
  · rwa [List.getLast?_append_of_ne_nil _ ht] at hc

/-- What is sent is taken apart as it was put together. -/
theorem requestParts_requestLine (v : SocketVerb) (p : SocketPrincipal) :
    trim (readLine (requestLine v.word p.text)) ≠ [] ∧
      requestParts (trim (readLine (requestLine v.word p.text))) = (v.word, trim p.text) := by
  obtain ⟨a, b, hab, ha, hb⟩ := exists_eq_trim_between p.text
  have hline : '\n' ∉ v.word ++ ' ' :: p.text := by
    rw [List.mem_append, List.mem_cons, not_or, not_or]
    refine ⟨fun hmem => ?_, by decide, p.line⟩
    exact absurd (v.not_white hmem) (by decide)
  have hspace : ' ' ∉ v.word := fun hmem => absurd (v.not_white hmem) (by decide)
  have hhead : ∀ c ∈ v.word.head?, isWhitespace c = false := fun c hc =>
    v.not_white (List.mem_of_mem_head? hc)
  have hlast : ∀ c ∈ (trim p.text).getLast?, isWhitespace c = false := by
    intro c hc
    rw [List.getLast?_eq_some_getLast p.visible, Option.mem_some_iff] at hc
    exact hc ▸ getLast_trim p.visible
  -- the line is trimmed at its end only, the blanks in front of the principal stay
  have hreq : trim (readLine (requestLine v.word p.text)) = v.word ++ ' ' :: (a ++ trim p.text) := by
    rw [requestLine, readLine_append hline]
    have hshape : v.word ++ ' ' :: p.text = (v.word ++ ' ' :: a ++ trim p.text) ++ b := by
      conv_lhs => rw [hab]
      simp only [List.append_assoc, List.cons_append]
    rw [hshape, trim_append_blank (isBlank_iff.mpr hb),
      trim_eq_self_of_ends v.nonempty hhead p.visible hlast]
    simp only [List.append_assoc, List.cons_append]
  rw [hreq]
  refine ⟨by simp [v.nonempty], ?_⟩
  rw [requestParts, before_append _ hspace, splitOnce_append _ hspace, v.upper, Option.map_some,
    Option.getD_some, trim_blank_append ha, trim_trim]

/-! ## Answers arrive -/

/-- The client reads the answer without its line feed. -/
theorem socketResponse_line {s : Str} (hline : '\n' ∉ s) (hs : trim s = s) :
    socketResponse (s ++ ['\n']) = s := by
  rw [socketResponse, readLine_append hline, hs]

/-- A list of gids has digits and bars only. -/
theorem not_mem_gidList {c : Char} (hdigit : c.isDigit = false) (hbar : c ≠ '|') (gids : List UInt32) :
    c ∉ gidList gids := by
  intro hmem
  rcases mem_intercalate hmem with hsep | ⟨m, hm, hc⟩
  · exact hbar (by simpa using hsep)
  · obtain ⟨g, -, rfl⟩ := List.mem_map.mp hm
    exact not_mem_decimal hdigit g hc

/-- The fields of a list of gids. -/
theorem filterMap_parse_decimal (gids : List UInt32) :
    (gids.map decimal).filterMap (fun s => parseU32 (trim s)) = gids := by
  rw [List.filterMap_map]
  simp

/-- A list of gids splits at its bars. -/
theorem splitOn_gidList {gids : List UInt32} (h : gids ≠ []) :
    (gidList gids).splitOn '|' = gids.map decimal := by
  refine List.splitOn_intercalate '|' (fun s hs => ?_) (by simpa using h)
  obtain ⟨g, -, rfl⟩ := List.mem_map.mp hs
  exact not_mem_decimal (by decide) g

/-- Gids between bars hold no white space. -/
theorem isWhitespace_of_mem_gidList {c : Char} {gids : List UInt32} (h : c ∈ gidList gids) :
    isWhitespace c = false := by
  by_contra hwhite
  rw [Bool.not_eq_false] at hwhite
  refine not_mem_gidList ?_ ?_ gids h
  · by_contra hdigit
    rw [isWhitespace_of_isDigit (by simpa using hdigit)] at hwhite
    exact Bool.false_ne_true hwhite
  · rintro rfl
    exact absurd hwhite (by decide)

/-- Where two kinds of separators agree on the characters of a text, it is split alike. -/
theorem splitOnP_congr {p q : Char → Bool} {s : Str} (h : ∀ c ∈ s, p c = q c) :
    s.splitOnP p = s.splitOnP q := by
  induction s with
  | nil => simp
  | cons c s ih =>
    rw [List.forall_mem_cons] at h
    rw [List.splitOnP_cons_eq_if_modifyHead, List.splitOnP_cons_eq_if_modifyHead, h.1, ih h.2]

/-- A list with gids is not empty as a text. -/
theorem gidList_ne_nil {gids : List UInt32} (h : gids ≠ []) : gidList gids ≠ [] := by
  intro hnil
  have hsplit := splitOn_gidList h
  rw [hnil] at hsplit
  have hmem : [] ∈ gids.map decimal := by
    rw [← hsplit]
    exact List.mem_singleton_self _
  obtain ⟨g, -, hg⟩ := List.mem_map.mp hmem
  exact decimal_ne_nil g hg

/-- `OK ` in front of something that ends in something printable. -/
theorem trim_ok_append {s : Str} (hne : s ≠ []) (hlast : ∀ c ∈ s.getLast?, isWhitespace c = false) :
    trim ("OK ".toList ++ s) = "OK ".toList ++ s :=
  trim_eq_self_of_ends (s := "OK ".toList) (u := []) (by decide)
    (fun c hc => by cases hc; decide) hne hlast

/-- The text behind `OK` is read. -/
theorem stripOk_append (s : Str) : stripOk ("OK ".toList ++ s) = some s := rfl

/-- **Group answers.** The client gets the gids of the daemon; it cannot tell an empty list from a
refusal. -/
theorem socketCmdGids_gidsReply (q : Str) (gids : List UInt32) :
    socketCmdGids (socketResponse (gidsReply q gids)) = if gids = [] then none else some gids := by
  by_cases hnil : gids = []
  · subst hnil
    rw [if_pos rfl, gidsReply]
    split
    · decide
    · decide
  · have hline : '\n' ∉ "OK ".toList ++ gidList gids := by
      rw [List.mem_append, not_or]
      exact ⟨by decide, not_mem_gidList (by decide) (by decide) gids⟩
    have htrim := trim_ok_append (gidList_ne_nil hnil) fun c hc =>
      isWhitespace_of_mem_gidList (List.mem_of_mem_getLast? hc)
    rw [gidsReply, if_neg (fun h => hnil h.1), socketResponse_line hline htrim, socketCmdGids,
      stripOk_append, Option.bind_some, splitOn_gidList hnil, filterMap_parse_decimal, if_neg hnil]

/-- The health check reads the gids the command line tool prints. -/
theorem parseGrpsOutput_cliGrps {p out : Str} {gids : List UInt32} (h : cliGrps p gids = some out) :
    parseGrpsOutput out = gids := by
  rw [cliGrps] at h
  split at h
  · exact absurd h (by simp)
  · rw [Option.some_inj] at h
    subst h
    by_cases hnil : gids = []
    · subst hnil
      decide
    · have htrim : trim ("OK ".toList ++ gidList gids ++ ['\n']) = "OK ".toList ++ gidList gids := by
        rw [trim_append_blank (by decide)]
        exact trim_ok_append (gidList_ne_nil hnil) fun c hc =>
          isWhitespace_of_mem_gidList (List.mem_of_mem_getLast? hc)
      -- neither of the other separators occurs in a list of gids
      have hsplit : (gidList gids).splitOnP (fun c => c = '|' || c = ' ' || c = ',') =
          (gidList gids).splitOn '|' := by
        rw [List.splitOn_eq_splitOnP]
        refine splitOnP_congr fun c hc => ?_
        have hspace : c ≠ ' ' := by
          rintro rfl
          exact not_mem_gidList (by decide) (by decide) gids hc
        have hcomma : c ≠ ',' := by
          rintro rfl
          exact not_mem_gidList (by decide) (by decide) gids hc
        simp only [hspace, hcomma, decide_false, Bool.or_false]
        rfl
      rw [parseGrpsOutput, htrim, stripOk_append, Option.getD_some, hsplit, splitOn_gidList hnil,
        filterMap_parse_decimal]

/-! ## Identities -/

/-- The words an answer may carry as its source. -/
def answerSources : List Str :=
  "cache".toList :: "special".toList :: "rejected-numeric".toList :: "direct".toList ::
    resolveFailClosedSource :: lookupSources

section Answer

variable {σ : Type*} (env : Env σ)

/-- Where an answer comes from is one of the daemon's words. -/
theorem source_of_resolvePrincipal (realm : Str) (variants : List Str) (p : Str) (w : World σ) :
    (resolvePrincipal env realm variants p w).1.source ∈ answerSources := by
  rcases resolvePrincipal_cases env realm variants (p := p) rfl w with
    ⟨-, heq⟩ | ⟨-, ⟨e, -, heq⟩ | ⟨-, heq⟩⟩
  · rw [heq]
    simp [rejectedNumeric, answerSources]
  · rw [heq]
    simp [answerSources]
  · rw [heq]
    rcases resolveMiss_cases env (refreshWith env id id realm variants) realm variants
        (canonicalizePrincipal (trim p) realm) w with
      ⟨-, hmiss⟩ | ⟨-, ⟨ids, s, hids, hmiss⟩ | ⟨-, -, s, hmiss⟩ | ⟨-, -, s, hmiss⟩⟩
    · rw [hmiss]
      simp [machineResolved, answerSources]
    · rw [hmiss]
      have hsource := source_of_resolveViaNss env hids
      simp only [answerSources, List.mem_cons]
      exact Or.inr (Or.inr (Or.inr (Or.inr (Or.inr hsource))))
    · rw [hmiss]
      simp [failClosed, answerSources]
    · rw [hmiss]
      simp [nobodyFallback, answerSources]

/-- Such a word has neither a bar nor white space in it. -/
theorem source_plain {source : Str} (h : source ∈ answerSources) :
    source ≠ [] ∧ '|' ∉ source ∧ ∀ c ∈ source, isWhitespace c = false := by
  have hall : answerSources.all (fun s => decide (s ≠ [] ∧ '|' ∉ s) && s.all fun c => !isWhitespace c) =
      true := by decide
  have hsource := List.all_eq_true.mp hall source h
  simpa [and_assoc] using hsource

end Answer

/-- **Identities.** An identity on one line arrives, with its local part for a name and without its
groups, unless nobody was found or its principal has a bar in it; then nothing arrives. -/
theorem tryResolveViaSocket_format {r : Resolved} (hline : '\n' ∉ r.principal)
    (hsource : r.source ∈ answerSources) :
    tryResolveViaSocket (socketResponse (formatResolveSocketLine r)) =
      if isUnresolvedFailClosed r ∨ '|' ∈ r.principal then none
      else some { r with name := principalLocalPart r.principal, supplementalGids := [] } := by
  by_cases hclosed : isUnresolvedFailClosed r = true
  · rw [if_pos (Or.inl hclosed), formatResolveSocketLine, if_pos hclosed]
    decide
  obtain ⟨hne, hbar, hwhite⟩ := source_plain hsource
  have hlf : ∀ {c : Char}, isWhitespace c = true → c ∉ r.source := fun hc hmem => by
    rw [hwhite _ hmem] at hc
    exact Bool.false_ne_true hc
  generalize hrest : ['|'].intercalate [decimal r.uid, decimal r.gid, r.kind.asStr, r.source] = rest
  have hfields : ['|'].intercalate [r.principal, decimal r.uid, decimal r.gid, r.kind.asStr, r.source] =
      r.principal ++ '|' :: rest := by
    rw [← hrest]
    simp [List.intercalate]
  have hsplit : rest.splitOn '|' = [decimal r.uid, decimal r.gid, r.kind.asStr, r.source] := by
    rw [← hrest]
    refine List.splitOn_intercalate '|' ?_ (by simp)
    simp only [List.forall_mem_cons]
    exact ⟨not_mem_decimal (by decide) _, not_mem_decimal (by decide) _, not_mem_asStr (by decide) _,
      hbar, by simp⟩
  have hrestline : '\n' ∉ rest := by
    rw [← hrest]
    intro hmem
    rcases mem_intercalate hmem with hsep | ⟨m, hm, hc⟩
    · exact absurd hsep (by decide)
    · simp only [List.mem_cons, List.not_mem_nil, or_false] at hm
      rcases hm with rfl | rfl | rfl | rfl
      · exact not_mem_decimal (by decide) _ hc
      · exact not_mem_decimal (by decide) _ hc
      · exact not_mem_asStr (by decide) _ hc
      · exact hlf (by decide) hc
  have hlast : ∀ c ∈ (r.principal ++ '|' :: rest).getLast?, isWhitespace c = false := by
    intro c hc
    have hend : ∃ front, r.principal ++ '|' :: rest = front ++ r.source := by
      rw [← hrest]
      exact ⟨r.principal ++ '|' :: ['|'].intercalate [decimal r.uid, decimal r.gid, r.kind.asStr] ++ ['|'],
        by simp [List.intercalate]⟩
    obtain ⟨front, hfront⟩ := hend
    rw [hfront, List.getLast?_append_of_ne_nil _ hne] at hc
    exact hwhite c (List.mem_of_mem_getLast? hc)
  have hreplyline : '\n' ∉ "OK ".toList ++ (r.principal ++ '|' :: rest) := by
    simp only [List.mem_append, List.mem_cons, not_or]
    exact ⟨by decide, hline, by decide, hrestline⟩
  rw [formatResolveSocketLine, if_neg hclosed, hfields,
    socketResponse_line hreplyline (trim_ok_append (by simp) hlast), tryResolveViaSocket,
    stripOk_append, Option.bind_some, List.splitOn_append_cons_self, hsplit]
  by_cases hprincipal : '|' ∈ r.principal
  · rw [if_pos (Or.inr hprincipal)]
    -- there are more fields than the client takes
    obtain ⟨front, back, hcut⟩ := List.append_of_mem hprincipal
    split
    next heq =>
      have hlen := congrArg List.length heq
      rw [hcut, List.splitOn_append_cons_self] at hlen
      have hfront := List.length_pos_iff.mpr (List.splitOn_ne_nil '|' front)
      have hback := List.length_pos_iff.mpr (List.splitOn_ne_nil '|' back)
      simp only [List.length_append, List.length_cons, List.length_nil] at hlen
      omega
    next => rfl
  · rw [if_neg (not_or.mpr ⟨hclosed, hprincipal⟩), List.splitOn_eq_singleton hprincipal]
    have hkind : PrincipalKind.ofStr r.kind.asStr = r.kind := by cases r.kind <;> decide
    simp only [List.singleton_append, parseU32_decimal, hkind]

/-! ## Exchanges -/

section Exchange

variable {σ : Type*} (env : Env σ) (rebulk : World σ → Option Nat × World σ) (realm : Str)
  (variants : List Str)

/-- The three verbs that ask for groups. -/
def groupVerbs : List Str := ["GRPS".toList, "GROUPLIST".toList, "GETGROUPLIST".toList]

/-- **What a client ends up with** when it asks for a principal: what the daemon finds for it, which
leaves the daemon as the lookup leaves it. -/
structure SocketAgrees (p : SocketPrincipal) (w : World σ) : Prop where
  groups : ∀ cmd ∈ groupVerbs,
    let found := resolveGidsAndMaterialize env realm variants (trim p.text) false w
    let exchange := handleClient env rebulk realm variants (requestLine cmd p.text) w
    exchange.2 = found.2 ∧
      socketCmdGids (socketResponse exchange.1) = (if found.1 = [] then none else some found.1) ∧
      ∀ out ∈ cliGrps p.text found.1, parseGrpsOutput out = found.1
  identity :
    let found := resolvePrincipal env realm variants (trim p.text) w
    let exchange := handleClient env rebulk realm variants (requestLine "RESOLVE".toList p.text) w
    exchange.2 = found.2 ∧
      ('\n' ∉ found.1.principal → tryResolveViaSocket (socketResponse exchange.1) =
        if isUnresolvedFailClosed found.1 ∨ '|' ∈ found.1.principal then none
        else some { found.1 with
          name := principalLocalPart found.1.principal, supplementalGids := [] })

/-- The daemon reads a request as its verb and the trimmed principal. -/
theorem handleClient_requestLine (v : SocketVerb) (p : SocketPrincipal) (w : World σ) :
    handleClient env rebulk realm variants (requestLine v.word p.text) w =
      answerVerb env rebulk realm variants v.word (trim p.text) w := by
  obtain ⟨hsome, hparts⟩ := requestParts_requestLine v p
  rw [handleClient, if_neg hsome, hparts]

/-- The daemon answers a request for groups with the gids it finds. -/
theorem answerVerb_groups {cmd arg : Str} (hcmd : cmd ∈ groupVerbs) (harg : arg ≠ []) (w : World σ) :
    answerVerb env rebulk realm variants cmd arg w =
      (gidsReply arg (resolveGidsAndMaterialize env realm variants arg false w).1,
        (resolveGidsAndMaterialize env realm variants arg false w).2) := by
  have hother : cmd ≠ "PING".toList ∧ cmd ≠ "CLASSIFY".toList ∧ cmd ≠ "RESOLVE".toList ∧
      cmd ≠ "REBULK".toList := by
    have hall : groupVerbs.all (fun cmd => decide (cmd ≠ "PING".toList ∧ cmd ≠ "CLASSIFY".toList ∧
        cmd ≠ "RESOLVE".toList ∧ cmd ≠ "REBULK".toList)) = true := by decide
    simpa only [decide_eq_true_eq] using List.all_eq_true.mp hall cmd hcmd
  rw [answerVerb, if_neg hother.1, if_neg hother.2.1, if_neg hother.2.2.1, if_neg hother.2.2.2,
    if_neg harg]
  by_cases hgrps : cmd = "GRPS".toList
  · rw [if_pos hgrps]
  · have hlist : cmd = "GROUPLIST".toList ∨ cmd = "GETGROUPLIST".toList := by
      simp only [groupVerbs, List.mem_cons, List.not_mem_nil, or_false] at hcmd
      exact hcmd.resolve_left hgrps
    rw [if_neg hgrps, if_pos hlist, if_neg harg]

/-- The daemon answers `RESOLVE` with the line of what it resolves. -/
theorem answerVerb_resolve {arg : Str} (harg : arg ≠ []) (w : World σ) :
    answerVerb env rebulk realm variants "RESOLVE".toList arg w =
      (formatResolveSocketLine (resolvePrincipal env realm variants arg w).1,
        (resolvePrincipal env realm variants arg w).2) := by
  rw [answerVerb, if_neg (by decide), if_neg (by decide), if_pos rfl, if_neg harg]

/-- The words the clients send are verbs. -/
theorem exists_socketVerb {cmd : Str} (hcmd : cmd ∈ "RESOLVE".toList :: groupVerbs) :
    ∃ v : SocketVerb, v.word = cmd := by
  have hall : ("RESOLVE".toList :: groupVerbs).all (fun cmd => decide (toAsciiUppercase cmd = cmd) &&
      cmd.all (fun c => !isWhitespace c) && decide (cmd ≠ [])) = true := by decide
  have hverb := List.all_eq_true.mp hall cmd hcmd
  rw [Bool.and_eq_true, Bool.and_eq_true, decide_eq_true_eq, decide_eq_true_eq] at hverb
  exact ⟨⟨cmd, hverb.1.1, hverb.1.2, hverb.2⟩, rfl⟩

end Exchange

end NfsKlldap
