import Mathlib
import OpenBlade.Domain.Errors
import OpenBlade.Domain.Normpath
import OpenBlade.Effects.Dict

/-!
# Uploads through the protocol gateway

`nas/protocol_gateway.py`: a user of the gateway may write to some of the inboxes. A requested path is normalised and matched with
the inboxes the user is allowed, and what is left of it is put under the local directory of the inbox.
-/

namespace OpenBlade

open Effects

/-- `InboxPath`. -/
inductive InboxPath where
  | general
  | critical
  | sharded
  | restore
  deriving Repr, DecidableEq

namespace InboxPath

def value : InboxPath → String
  | general => "/openblade/inbox"
  | critical => "/openblade/inbox-critical"
  | sharded => "/openblade/inbox-sharded"
  | restore => "/openblade/restore"

def all : List InboxPath := [general, critical, sharded, restore]

/-- `_INBOX_DIRECTORY_NAMES`. -/
def directoryName : InboxPath → String
  | general => "inbox"
  | critical => "inbox-critical"
  | sharded => "inbox-sharded"
  | restore => "restore"

end InboxPath

/-- What a user of the gateway is allowed. -/
structure GatewayCredential where
  allowedPaths : List String := [InboxPath.general.value]
  enabled : Bool := true
  /-- Grants are for inboxes. -/
  granted : ∀ path ∈ allowedPaths, ∃ inbox : InboxPath, inbox.value = path

/-- A credential as it is made when no paths are named. -/
def GatewayCredential.general : GatewayCredential :=
  { granted := fun _ hpath => ⟨.general, (List.mem_singleton.1 hpath).symm⟩ }

/-- `ProtocolGateway`, of which uploads read the credentials and the root of the inboxes. -/
structure ProtocolGateway where
  credentials : Dict String GatewayCredential := []
  inboxRoot : String := "/var/lib/openblade"

section

-- `repr` of a text, in messages
variable (repr : String → String)

/-- `InboxPath(value)`. -/
def InboxPath.ofValue (value : String) : Except Exn InboxPath :=
  match InboxPath.all.find? fun inbox => inbox.value = value with
  | some inbox => .ok inbox
  | none => .error (valueError (repr value ++ " is not a valid InboxPath"))

/-- The loop of `_normalize_allowed_paths`. -/
def addAllowedPaths (normalized : List String) : List String → Except Exn (List String)
  | [] => .ok normalized
  | value :: values =>
    if value ∉ InboxPath.all.map InboxPath.value then .error (valueError ("Unsupported inbox path " ++ repr value))
    else if value ∈ normalized then addAllowedPaths normalized values
    else addAllowedPaths (normalized ++ [value]) values

/-- `_normalize_allowed_paths`. -/
def normalizeAllowedPaths : Option (List String) → Except Exn (List String)
  | none | some [] => .ok [InboxPath.general.value]
  | some (path :: paths) => addAllowedPaths repr [] (path :: paths)

theorem granted_addAllowedPaths {normalized values paths : List String} (h : addAllowedPaths repr normalized values = .ok paths)
    (hgranted : ∀ path ∈ normalized, ∃ inbox : InboxPath, inbox.value = path) :
    ∀ path ∈ paths, ∃ inbox : InboxPath, inbox.value = path := by
  induction values generalizing normalized with
  | nil => exact Except.ok.inj h ▸ hgranted
  | cons value values ih =>
    unfold addAllowedPaths at h
    split at h
    · cases h
    · rename_i hvalue
      obtain ⟨inbox, -, hinbox⟩ := List.mem_map.1 (not_not.1 hvalue)
      split at h
      · exact ih h hgranted
      · refine ih h fun path hpath => ?_
        rcases List.mem_append.1 hpath with hpath | hpath
        · exact hgranted path hpath
        · exact ⟨inbox, hinbox.trans (List.mem_singleton.1 hpath).symm⟩

theorem granted_normalizeAllowedPaths {allowedPaths : Option (List String)} {paths : List String}
    (h : normalizeAllowedPaths repr allowedPaths = .ok paths) : ∀ path ∈ paths, ∃ inbox : InboxPath, inbox.value = path := by
  match allowedPaths with
  | none | some [] => exact Except.ok.inj h ▸ GatewayCredential.general.granted
  | some (path :: rest) => exact granted_addAllowedPaths repr h fun _ h => absurd h List.not_mem_nil

/-- The grants of a credential, as `GatewayCredential.create` and `update_credential` set them. -/
def GatewayCredential.grant (cred : GatewayCredential) (allowedPaths : Option (List String)) : Except Exn GatewayCredential :=
  match h : normalizeAllowedPaths repr allowedPaths with
  | .ok paths => .ok { cred with allowedPaths := paths, granted := granted_normalizeAllowedPaths repr h }
  | .error e => .error e

/-- `_normalize_gateway_path`. -/
def normalizeGatewayPath (path : String) : Except Exn String :=
  if path = "" then .error (valueError "Path must not be empty")
  else
    let normalized := normpath (if path.toList.head? = some '/' then path else "/" ++ path)
    let normalized := if normalized = "." then "/" else normalized
    .ok (if normalized.toList.head? ≠ some '/' then "/" ++ normalized else normalized)

/-- `_match_inbox_prefix`. -/
def matchInboxPrefix (path : String) (candidates : List String) : Except Exn (Option String) := do
  let normalized ← normalizeGatewayPath path
  let candidates ← candidates.mapM normalizeGatewayPath
  pure ((candidates.insertionSort fun a b => b.length ≤ a.length).find? fun candidate =>
    normalized = candidate ∨ (candidate ++ "/").toList <+: normalized.toList)

namespace ProtocolGateway

variable (gateway : ProtocolGateway)

/-- `add_credential`, without the password. -/
def addCredential (username : String) (allowedPaths : Option (List String)) : Except Exn ProtocolGateway :=
  if (gateway.credentials.get? username).isSome then .error (valueError ("Credential for " ++ repr username ++ " already exists"))
  else do
    let cred ← GatewayCredential.general.grant repr allowedPaths
    pure { gateway with credentials := gateway.credentials.set username cred }

/-- `remove_credential`. -/
def removeCredential (username : String) : ProtocolGateway :=
  { gateway with credentials := gateway.credentials.erase username }

/-- `update_credential`, without the password. A grant that is refused leaves what was set before it. -/
def updateCredential (username : String) (enabled : Option Bool) (allowedPaths : Option (List String)) :
    Except Exn Unit × ProtocolGateway :=
  match gateway.credentials.get? username with
  | none => (.ok (), gateway)
  | some cred =>
    let cred := { cred with enabled := enabled.getD cred.enabled }
    let gateway := { gateway with credentials := gateway.credentials.set username cred }
    match allowedPaths with
    | none => (.ok (), gateway)
    | some paths =>
      match cred.grant repr (some paths) with
      | .ok cred => (.ok (), { gateway with credentials := gateway.credentials.set username cred })
      | .error e => (.error e, gateway)

/-- `check_path_allowed`. -/
def checkPathAllowed (username path : String) : Except Exn Bool :=
  match gateway.credentials.get? username with
  | none => .ok false
  | some cred => if cred.enabled then (matchInboxPrefix path cred.allowedPaths).map Option.isSome else .ok false

/-- `self._inbox_root.rstrip("/")`. -/
def destination : String := String.ofList (gateway.inboxRoot.toList.rdropWhile (· = '/'))

/-- The local directory of an inbox. -/
def inboxDirectory (inbox : InboxPath) : String := posixJoin gateway.destination inbox.directoryName

def credentialNotAvailable (username : String) : Exn :=
  { cls := .permissionError, message := "Credential " ++ repr username ++ " is not available" }

/-- `route_upload_path`. -/
def routeUploadPath (username path : String) : Except Exn String :=
  match gateway.credentials.get? username with
  | none => .error (credentialNotAvailable repr username)
  | some cred =>
    if cred.enabled then do
      let normalized ← normalizeGatewayPath path
      match ← matchInboxPrefix normalized cred.allowedPaths with
      | none =>
        .error { cls := .permissionError, message := "Path " ++ repr normalized ++ " is not allowed for " ++ repr username }
      | some matchedPrefix => do
        let suffix := lstripSlash (String.ofList (normalized.toList.drop matchedPrefix.length))
        let inbox ← InboxPath.ofValue repr matchedPrefix
        let routed := gateway.inboxDirectory inbox
        pure (if suffix = "" then routed else posixJoin routed suffix)
    else .error (credentialNotAvailable repr username)

end ProtocolGateway

end

/-- A file in a directory or in a directory below it. -/
def StrictlyBelow (directory file : String) : Prop :=
  ∃ names : List String, names ≠ [] ∧ (∀ name ∈ names, IsComponent name) ∧ file = directory ++ "/" ++ "/".intercalate names

namespace GatewayAux

/-! ### Normal forms -/

/-- The text that is normalised: an absolute one. -/
def absoluteText (path : String) : String := if path.toList.head? = some '/' then path else "/" ++ path

theorem head_absoluteText (path : String) : (absoluteText path).toList.head? = some '/' := by
  unfold absoluteText
  split
  · assumption
  · simp

theorem normalizeGatewayPath_eq {path : String} (h : path ≠ "") :
    normalizeGatewayPath path = .ok (normpath (absoluteText path)) := by
  have hhead := head_normpath (head_absoluteText path)
  have hdot : normpath (absoluteText path) ≠ "." := fun heq => by
    rw [heq] at hhead
    exact absurd hhead (by decide)
  unfold normalizeGatewayPath
  rw [if_neg h]
  simp only [show (if path.toList.head? = some '/' then path else "/" ++ path) = absoluteText path from rfl, if_neg hdot, hhead,
    ne_eq, not_true_eq_false, if_false]

/-- What is normalised is absolute and made of names, and is normal. -/
theorem normalized {path text : String} (h : normalizeGatewayPath path = .ok text) :
    text.toList.head? = some '/' ∧ normpath text = text ∧ (∀ comp ∈ (PurePosixPath.ofString text).parts, IsComponent comp) ∧
      normalizeGatewayPath text = .ok text := by
  have hpath : path ≠ "" := fun heq => by
    rw [heq] at h
    cases h
  rw [normalizeGatewayPath_eq hpath] at h
  obtain rfl := Except.ok.inj h
  have hhead := head_normpath (head_absoluteText path)
  have hnormal := normpath_normpath (head_absoluteText path)
  refine ⟨hhead, hnormal, ?_, ?_⟩
  · rw [ofString_normpath]
    exact isComponent_resolvedPath (head_absoluteText path)
  · have hne : normpath (absoluteText path) ≠ "" := fun heq => by
      rw [heq] at hhead
      cases hhead
    rw [normalizeGatewayPath_eq hne, absoluteText, if_pos hhead, hnormal]

theorem normalizeGatewayPath_value (inbox : InboxPath) : normalizeGatewayPath inbox.value = .ok inbox.value := by
  cases inbox <;> decide

/-! ### Matching -/

theorem mapM_granted {paths : List String} (h : ∀ path ∈ paths, ∃ inbox : InboxPath, inbox.value = path) :
    paths.mapM normalizeGatewayPath = .ok paths := by
  induction paths with
  | nil => rfl
  | cons path paths ih =>
    obtain ⟨inbox, rfl⟩ := h path List.mem_cons_self
    rw [List.mapM_cons, normalizeGatewayPath_value, ih fun p hp => h p (List.mem_cons_of_mem _ hp)]
    rfl

/-- A match of a normal path: an inbox that is granted, and the path is the inbox or in it. -/
theorem matched {text m : String} {cred : GatewayCredential} (hm : matchInboxPrefix text cred.allowedPaths = .ok (some m))
    (hnormal : normalizeGatewayPath text = .ok text) :
    ∃ inbox : InboxPath, inbox.value = m ∧ m ∈ cred.allowedPaths ∧ (text = m ∨ (m ++ "/").toList <+: text.toList) := by
  unfold matchInboxPrefix at hm
  rw [hnormal, mapM_granted cred.granted] at hm
  have hfind := Except.ok.inj hm
  have hgranted : m ∈ cred.allowedPaths := (List.mem_insertionSort _).1 (List.mem_of_find?_eq_some hfind)
  obtain ⟨inbox, hinbox⟩ := cred.granted m hgranted
  have hmatch := List.find?_some hfind
  exact ⟨inbox, hinbox, hgranted, of_decide_eq_true hmatch⟩

theorem matchInboxPrefix_normalized {path text : String} (h : normalizeGatewayPath path = .ok text) (candidates : List String) :
    matchInboxPrefix text candidates = matchInboxPrefix path candidates := by
  unfold matchInboxPrefix
  rw [h, (normalized h).2.2.2]

/-- What is left of a path in an inbox. -/
def suffixOf (inbox : InboxPath) (text : String) : String := lstripSlash (String.ofList (text.toList.drop inbox.value.length))

theorem ofString_value (inbox : InboxPath) :
    PurePosixPath.ofString inbox.value = { root := "/", parts := ["openblade", inbox.directoryName] } := by
  cases inbox <;> decide

/-- A path in an inbox is the inbox and what is left. -/
theorem ofString_matched {inbox : InboxPath} {text : String} (h : text = inbox.value ∨ (inbox.value ++ "/").toList <+: text.toList) :
    PurePosixPath.ofString text =
      { root := "/", parts := ["openblade", inbox.directoryName] ++ (PurePosixPath.ofString (suffixOf inbox text)).parts } := by
  have hvalue := ofString_value inbox
  rcases h with rfl | ⟨rest, hrest⟩
  · have hsuffix : suffixOf inbox inbox.value = "" := by
      unfold suffixOf
      rw [← String.length_toList, List.drop_length]
      rfl
    rw [hsuffix, hvalue]
    rfl
  · have htext : text.toList = inbox.value.toList ++ '/' :: rest := by
      rw [← hrest]
      simp
    have hends : inbox.value.toList ≠ [] ∧ inbox.value.toList.getLast? ≠ some '/' := by cases inbox <;> decide
    have hsuffix : (suffixOf inbox text).toList = rest.dropWhile (· = '/') := by
      unfold suffixOf
      rw [toList_lstripSlash, String.toList_ofList, htext, ← String.length_toList, List.drop_left]
      exact List.dropWhile_cons_of_pos (by decide)
    have hslash : MeetAtSlash inbox.value.toList ('/' :: rest) := .inr (.inr rfl)
    have hone : partsOf ('/' :: rest) = partsOf rest := partsOf_replicate_append 1 rest
    rw [ofString_eq] at hvalue
    have hroot := congrArg PurePosixPath.root hvalue
    have hparts := congrArg PurePosixPath.parts hvalue
    simp only at hroot hparts
    rw [ofString_eq, ofString_eq (suffixOf inbox text), hsuffix, htext, leadingSlashes_append_slash hends.1 hends.2, hroot,
      (partsOf_append_iff _ _).2 hslash, List.map_append, hparts, hone, partsOf_dropWhile]

theorem isComponent_directoryName (inbox : InboxPath) : IsComponent inbox.directoryName := by
  cases inbox <;> exact ⟨by decide, by decide, by decide, by decide⟩

theorem ofString_directoryName (inbox : InboxPath) :
    PurePosixPath.ofString inbox.directoryName = { root := "", parts := [inbox.directoryName] } := by
  cases inbox <;> decide

theorem directoryName_inj {inbox other : InboxPath} (h : inbox.directoryName = other.directoryName) : inbox = other := by
  cases inbox <;> cases other <;> first | rfl | exact absurd h (by decide)

theorem ofValue_value (repr : String → String) (inbox : InboxPath) : InboxPath.ofValue repr inbox.value = .ok inbox := by
  cases inbox <;> rfl

/-! ### Routing -/

/-- A path that is routed: the user is allowed an inbox, the path is in it, and what is left of it stands under its directory. -/
structure Routed (gateway : ProtocolGateway) (username path routed : String) (cred : GatewayCredential) (inbox : InboxPath)
    (text : String) (names : List String) : Prop where
  known : gateway.credentials.get? username = some cred
  enabled : cred.enabled = true
  granted : inbox.value ∈ cred.allowedPaths
  normal : normalizeGatewayPath path = .ok text
  virtual : PurePosixPath.ofString text = { root := "/", parts := ["openblade", inbox.directoryName] ++ names }
  isName : ∀ name ∈ names, IsComponent name
  root : (resolvedPath routed).root = (resolvedPath (gateway.inboxDirectory inbox)).root
  parts : (resolvedPath routed).parts = (resolvedPath (gateway.inboxDirectory inbox)).parts ++ names

theorem resolvedPath_inboxDirectory (gateway : ProtocolGateway) (inbox : InboxPath) :
    (resolvedPath (gateway.inboxDirectory inbox)).root = (resolvedPath gateway.destination).root ∧
      (resolvedPath (gateway.inboxDirectory inbox)).parts = (resolvedPath gateway.destination).parts ++ [inbox.directoryName] := by
  have hname := ofString_directoryName inbox
  have hhead : inbox.directoryName.toList.head? ≠ some '/' := by cases inbox <;> decide
  have hcomps : ∀ comp ∈ (PurePosixPath.ofString inbox.directoryName).parts, IsComponent comp := by
    rw [hname]
    exact fun comp hcomp => List.mem_singleton.1 hcomp ▸ isComponent_directoryName inbox
  have hjoin := resolvedPath_posixJoin (a := gateway.destination) hhead hcomps
  rw [hname] at hjoin
  exact hjoin

/-- A path that is refused. -/
def Refused (repr : String → String) (gateway : ProtocolGateway) (username path : String) : Prop :=
  (∃ e, gateway.routeUploadPath repr username path = .error e) ∧ gateway.checkPathAllowed username path ≠ .ok true

/-- A path that is matched is routed. -/
theorem routed_of_match (repr : String → String) {gateway : ProtocolGateway} {username path text m : String}
    {cred : GatewayCredential}
    (hknown : gateway.credentials.get? username = some cred) (henabled : cred.enabled = true)
    (hnormal : normalizeGatewayPath path = .ok text) (hmatch : matchInboxPrefix text cred.allowedPaths = .ok (some m)) :
    ∃ routed inbox names, gateway.routeUploadPath repr username path = .ok routed ∧
      Routed gateway username path routed cred inbox text names := by
  obtain ⟨inbox, rfl, hgranted, hin⟩ := matched hmatch (normalized hnormal).2.2.2
  have hvirtual := ofString_matched hin
  have hnames : ∀ name ∈ (PurePosixPath.ofString (suffixOf inbox text)).parts, IsComponent name := by
    intro name hname
    refine (normalized hnormal).2.2.1 name ?_
    rw [hvirtual]
    exact List.mem_append_right _ hname
  have hroute : gateway.routeUploadPath repr username path =
      .ok (if suffixOf inbox text = "" then gateway.inboxDirectory inbox
        else posixJoin (gateway.inboxDirectory inbox) (suffixOf inbox text)) := by
    simp only [ProtocolGateway.routeUploadPath, hknown, henabled, if_true, hnormal]
    show (matchInboxPrefix text cred.allowedPaths >>= _) = _
    rw [hmatch]
    show (InboxPath.ofValue repr inbox.value >>= _) = _
    rw [ofValue_value]
    rfl
  have hplace : (resolvedPath (if suffixOf inbox text = "" then gateway.inboxDirectory inbox
        else posixJoin (gateway.inboxDirectory inbox) (suffixOf inbox text))).root = (resolvedPath (gateway.inboxDirectory inbox)).root ∧
      (resolvedPath (if suffixOf inbox text = "" then gateway.inboxDirectory inbox
        else posixJoin (gateway.inboxDirectory inbox) (suffixOf inbox text))).parts =
          (resolvedPath (gateway.inboxDirectory inbox)).parts ++ (PurePosixPath.ofString (suffixOf inbox text)).parts := by
    split
    · rename_i hempty
      have hparts : (PurePosixPath.ofString (suffixOf inbox text)).parts = [] := by
        rw [hempty]
        decide
      rw [hparts, List.append_nil]
      exact ⟨rfl, rfl⟩
    · exact resolvedPath_posixJoin (head_lstripSlash _) hnames
  exact ⟨_, inbox, _, hroute, hknown, henabled, hgranted, hnormal, hvirtual, hnames, hplace.1, hplace.2⟩

/-- What the user is allowed decides about both. -/
theorem route_cases (repr : String → String) (gateway : ProtocolGateway) (username path : String) :
    Refused repr gateway username path ∨
      ∃ routed cred inbox text names, gateway.routeUploadPath repr username path = .ok routed ∧
        gateway.checkPathAllowed username path = .ok true ∧ Routed gateway username path routed cred inbox text names := by
  cases hknown : gateway.credentials.get? username with
  | none =>
    refine .inl ⟨⟨ProtocolGateway.credentialNotAvailable repr username, ?_⟩, ?_⟩
    · simp only [ProtocolGateway.routeUploadPath, hknown]
    · simp [ProtocolGateway.checkPathAllowed, hknown]
  | some cred =>
    cases henabled : cred.enabled with
    | false =>
      refine .inl ⟨⟨ProtocolGateway.credentialNotAvailable repr username, ?_⟩, ?_⟩
      · simp [ProtocolGateway.routeUploadPath, hknown, henabled]
      · simp [ProtocolGateway.checkPathAllowed, hknown, henabled]
    | true =>
      have hcheck : gateway.checkPathAllowed username path = (matchInboxPrefix path cred.allowedPaths).map Option.isSome := by
        simp [ProtocolGateway.checkPathAllowed, hknown, henabled]
      cases hnormal : normalizeGatewayPath path with
      | error e =>
        have hmatch : matchInboxPrefix path cred.allowedPaths = .error e := by
          unfold matchInboxPrefix
          rw [hnormal]
          rfl
        refine .inl ⟨⟨e, ?_⟩, ?_⟩
        · simp only [ProtocolGateway.routeUploadPath, hknown, henabled, if_true, hnormal]
          rfl
        · rw [hcheck, hmatch]
          intro h
          cases h
      | ok text =>
        have hsame := matchInboxPrefix_normalized hnormal cred.allowedPaths
        cases hmatch : matchInboxPrefix path cred.allowedPaths with
        | error e =>
          refine .inl ⟨⟨e, ?_⟩, ?_⟩
          · simp only [ProtocolGateway.routeUploadPath, hknown, henabled, if_true, hnormal]
            show (matchInboxPrefix text cred.allowedPaths >>= _) = _
            rw [hsame, hmatch]
            rfl
          · rw [hcheck, hmatch]
            intro h
            cases h
        | ok found =>
          cases found with
          | none =>
            refine .inl ⟨⟨{ cls := .permissionError
                            message := "Path " ++ repr text ++ " is not allowed for " ++ repr username }, ?_⟩, ?_⟩
            · simp only [ProtocolGateway.routeUploadPath, hknown, henabled, if_true, hnormal]
              show (matchInboxPrefix text cred.allowedPaths >>= _) = _
              rw [hsame, hmatch]
              rfl
            · rw [hcheck, hmatch]
              intro h
              cases h
          | some m =>
            obtain ⟨routed, inbox, names, hrouted, h⟩ :=
              routed_of_match repr hknown henabled hnormal (hsame.trans hmatch)
            exact .inr ⟨routed, cred, inbox, text, names, hrouted, by rw [hcheck, hmatch]; rfl, h⟩

/-- A path that is routed, from what it is routed to. -/
theorem routed_of_ok {repr : String → String} {gateway : ProtocolGateway} {username path routed : String}
    (h : gateway.routeUploadPath repr username path = .ok routed) :
    ∃ cred inbox text names, Routed gateway username path routed cred inbox text names := by
  rcases route_cases repr gateway username path with ⟨⟨e, he⟩, -⟩ | ⟨routed', cred, inbox, text, names, hrouted, -, hplace⟩
  · rw [h] at he
    cases he
  · rw [h] at hrouted
    exact Except.ok.inj hrouted ▸ ⟨cred, inbox, text, names, hplace⟩

/-- Lexically the file is the directory or below it. -/
theorem confined {gateway : ProtocolGateway} {username path routed text : String} {cred : GatewayCredential} {inbox : InboxPath}
    {names : List String} (h : Routed gateway username path routed cred inbox text names) :
    normpath routed = normpath (gateway.inboxDirectory inbox) ∨ StrictlyBelow (normpath (gateway.inboxDirectory inbox)) (normpath routed) := by
  cases hnames : names with
  | nil =>
    refine .inl (normpath_inj.2 ?_)
    have hroot := h.root
    have hparts := h.parts
    rw [hnames, List.append_nil] at hparts
    generalize resolvedPath routed = place at hroot hparts
    generalize resolvedPath (gateway.inboxDirectory inbox) = directory at hroot hparts
    cases place
    cases directory
    simp_all
  | cons name others =>
    refine .inr ⟨names, hnames ▸ List.cons_ne_nil _ _, h.isName, ?_⟩
    obtain ⟨-, hdirectory⟩ := resolvedPath_inboxDirectory gateway inbox
    have hbefore : (resolvedPath (gateway.inboxDirectory inbox)).parts ≠ [] := by
      rw [hdirectory]
      simp
    have hplace : (resolvedPath routed).parts ≠ [] := by
      rw [h.parts]
      simp [hbefore]
    rw [normpath_eq, normpath_eq, PurePosixPath.toString, PurePosixPath.toString, if_neg fun h => hplace h.2, if_neg fun h => hbefore h.2,
      h.root, h.parts, intercalate_append hbefore (hnames ▸ List.cons_ne_nil _ _)]
    simp [String.append_assoc]

end GatewayAux

open GatewayAux in
/-- Uploads are confined: a path that is routed leads to the local directory of an inbox the user is allowed, or below it; a path is
routed when it is allowed, and only then; and no two virtual files are routed to one local file. -/
theorem uploads_confined (repr : String → String) (gateway : ProtocolGateway) :
    (∀ username path routed, gateway.routeUploadPath repr username path = .ok routed → ∃ cred inbox,
      gateway.credentials.get? username = some cred ∧ cred.enabled = true ∧ InboxPath.value inbox ∈ cred.allowedPaths ∧
        (normpath routed = normpath (gateway.inboxDirectory inbox) ∨
          StrictlyBelow (normpath (gateway.inboxDirectory inbox)) (normpath routed))) ∧
    (∀ username path, (∃ routed, gateway.routeUploadPath repr username path = .ok routed) ↔
      gateway.checkPathAllowed username path = .ok true) ∧
    ∀ username username' path path' routed routed', gateway.routeUploadPath repr username path = .ok routed →
      gateway.routeUploadPath repr username' path' = .ok routed' → normpath routed = normpath routed' →
        normalizeGatewayPath path = normalizeGatewayPath path' := by
  refine ⟨fun username path routed h => ?_, fun username path => ?_, fun username username' path path' routed routed' h h' hsame => ?_⟩
  · obtain ⟨cred, inbox, text, names, hrouted⟩ := routed_of_ok h
    exact ⟨cred, inbox, hrouted.known, hrouted.enabled, hrouted.granted, confined hrouted⟩
  · rcases route_cases repr gateway username path with ⟨⟨e, he⟩, hcheck⟩ | ⟨routed, cred, inbox, text, names, hrouted, hcheck, -⟩
    · refine ⟨fun ⟨routed, h⟩ => ?_, fun h => absurd h hcheck⟩
      rw [he] at h
      cases h
    · exact ⟨fun _ => hcheck, fun _ => ⟨routed, hrouted⟩⟩
  · obtain ⟨cred, inbox, text, names, hrouted⟩ := routed_of_ok h
    obtain ⟨cred', inbox', text', names', hrouted'⟩ := routed_of_ok h'
    have hparts := congrArg PurePosixPath.parts (normpath_inj.1 hsame)
    rw [hrouted.parts, hrouted'.parts, (resolvedPath_inboxDirectory gateway inbox).2, (resolvedPath_inboxDirectory gateway inbox').2,
      List.append_assoc, List.append_assoc, List.append_cancel_left_eq] at hparts
    obtain ⟨hname, hnames⟩ := List.cons.inj hparts
    obtain rfl := directoryName_inj hname
    have hnames' : names = names' := hnames
    have hvirtual : PurePosixPath.ofString text = PurePosixPath.ofString text' := by
      rw [hrouted.virtual, hrouted'.virtual, hnames']
    have htext : ∀ {path text}, normalizeGatewayPath path = .ok text → text = (PurePosixPath.ofString text).toString := by
      intro path text hnormal
      have hfixed := (normalized hnormal).2.1
      have hread := ofString_normpath text
      rw [hfixed] at hread
      rw [hread, ← normpath_eq]
      exact hfixed.symm
    rw [hrouted.normal, hrouted'.normal, htext hrouted.normal, htext hrouted'.normal, hvirtual]

/-- Sibling inboxes are told apart, and dots lead nowhere else. -/
example :
    let gateway : ProtocolGateway := { credentials := [("user", .general)] }
    gateway.routeUploadPath id "user" "openblade/inbox/./a//b" = .ok "/var/lib/openblade/inbox/a/b" ∧
      gateway.checkPathAllowed "user" "/openblade/inbox/../inbox-critical/a" = .ok false := by
  decide

end OpenBlade
