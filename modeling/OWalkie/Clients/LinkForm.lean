import Mathlib
import OWalkie.Clients.LinkRoundTrip

/-!
# A link and the connection form

`ApplyConnectUri` reads host, channel and port before it writes a control, and the name behind the
other three.  Only the parse stands in a `try`: a field of another type leaves the function by an
exception, with the form as it was or with three controls of four written.  `applied_whole_iff` says
which links are applied whole or not at all.
-/

namespace OWalkie

/-- The texts of the controls; `none` is a null pointer. -/
structure ConnectForm where
  hostCtrl : Option String
  portCtrl : Option String
  channelCtrl : Option String
  connectionNameCtrl : Option String
  deriving DecidableEq

namespace ConnectForm

open Windows Nlohmann ConnectionLink

/-- `nlohmann::json::type_error`. -/
inductive TypeError where
  | type_error
  deriving DecidableEq

/-- `if (ctrl) ctrl->SetValue(text)`. -/
def setValue (text : String) (ctrl : Option String) : Option String := ctrl.map fun _ => text

/-- The three controls that are written before the name is read. -/
def write (host : String) (port : ℤ) (channel : String) (form : ConnectForm) : ConnectForm :=
  { form with
    hostCtrl := setValue host form.hostCtrl
    portCtrl := setValue (toString port) form.portCtrl
    channelCtrl := setValue channel form.channelCtrl }

def writeName (name : String) (form : ConnectForm) : ConnectForm :=
  if name = "" then form
  else { form with connectionNameCtrl := setValue name form.connectionNameCtrl }

def badFields (host channel : String) (port : ℤ) : Prop :=
  host = "" ∨ channel = "" ∨ port < 1 ∨ 65535 < port

instance (host channel : String) (port : ℤ) : Decidable (badFields host channel port) :=
  inferInstanceAs (Decidable (_ ∨ _ ∨ _ ∨ _))

/-- `ApplyConnectUri` behind the parse, with the form that it leaves. -/
def applyPayload (payload : Json) (form : ConnectForm) : Except TypeError Bool × ConnectForm :=
  match value getString "host" "" payload, value getString "channel" "" payload,
      value getInt "port" 0 payload with
  | some host, some channel, some port =>
    if badFields host channel port then (.ok false, form)
    else
      let written := form.write host port channel
      if written.connectionNameCtrl = none then (.ok true, written)
      else
        match value getString "name" "" payload with
        | none => (.error .type_error, written)
        | some name => (.ok true, written.writeName name)
  | _, _, _ => (.error .type_error, form)

/-- The bytes that the link carries: the scheme, the marker, what is cut off at the end, and the
decoder. -/
def linkBytes (uri : List UInt8) : Option (List UInt8) :=
  if Text.startsWith (· == ·) (Text.utf8 "owalkie://".toList) uri = false then none
  else
    match Text.search (· == ·) (Text.utf8 marker) uri with
    | none => none
    | some s =>
      let payloadB64 := ((s.drop (Text.utf8 marker).length).rdropWhile isspace).rdropWhile
        isPunctuation
      if payloadB64 = [] then none else Base64UrlDecode payloadB64

variable (json : JsonTexts)

/-- The JSON value that the link carries. -/
def linkPayload (uri : List UInt8) : Option Json := (linkBytes uri).bind json.parse

def ApplyConnectUri (uri : List UInt8) (form : ConnectForm) : Except TypeError Bool × ConnectForm :=
  match linkPayload json uri with
  | none => (.ok false, form)
  | some payload => applyPayload payload form

/-! ## Applied whole -/

/-- The form shows the fields of the payload: the port is the JSON integer itself. -/
structure Taken (payload : Json) (form form' : ConnectForm) : Prop where
  host : ∃ host, find "host" payload = some (.str host) ∧
    form'.hostCtrl = setValue host form.hostCtrl
  port : form.portCtrl ≠ none → ∃ port, find "port" payload = some (.int port) ∧
    form'.portCtrl = some (toString port)
  noPort : form.portCtrl = none → form'.portCtrl = none
  channel : ∃ channel, find "channel" payload = some (.str channel) ∧
    form'.channelCtrl = setValue channel form.channelCtrl
  name : ∀ name, find "name" payload = some (.str name) → name ≠ "" →
    form'.connectionNameCtrl = setValue name form.connectionNameCtrl
  keptName : (∀ name, find "name" payload = some (.str name) → name = "") →
    form'.connectionNameCtrl = form.connectionNameCtrl

/-- The link is applied whole or not at all, and nothing is thrown. -/
def AppliedWhole (uri : List UInt8) (form : ConnectForm) : Prop :=
  match ApplyConnectUri json uri form with
  | (.ok true, form') => ∃ payload, linkPayload json uri = some payload ∧ Taken payload form form'
  | (.ok false, form') => form' = form
  | (.error _, _) => False

def IsText (v : Json) : Prop := ∃ s, v = .str s

/-- A number, or a Boolean, which an integer type takes too. -/
def IsNumber : Json → Prop
  | .int _ | .float _ | .bool _ => True
  | _ => False

/-- The checks on host, channel and port pass. -/
def Acceptable (payload : Json) : Prop :=
  ∃ host channel v port, find "host" payload = some (.str host) ∧
    find "channel" payload = some (.str channel) ∧ find "port" payload = some v ∧
    getInt v = some port ∧ ¬ badFields host channel port

/-- The port is an integer that an `int` holds. -/
def IntPort (payload : Json) : Prop :=
  ∃ port, find "port" payload = some (.int port) ∧ -2 ^ 31 ≤ port ∧ port < 2 ^ 31

/-- An object whose fields have their types, the name where it is read, and whose port survives the
conversion to `int`, where it is shown. -/
structure Readable (payload : Json) (form : ConnectForm) : Prop where
  object : ∃ members, payload = .obj members
  host : ∀ v, find "host" payload = some v → IsText v
  channel : ∀ v, find "channel" payload = some v → IsText v
  port : ∀ v, find "port" payload = some v → IsNumber v
  shownPort : Acceptable payload → form.portCtrl ≠ none → IntPort payload
  name : Acceptable payload → form.connectionNameCtrl ≠ none →
    ∀ v, find "name" payload = some v → IsText v

/-! ## Reading a field -/

theorem getString_eq_some {v : Json} {s : String} : getString v = some s ↔ v = .str s := by
  cases v <;> simp [getString]

theorem isSome_getString (v : Json) : (getString v).isSome ↔ IsText v := by
  cases v <;> simp [getString, IsText]

theorem isSome_getInt (v : Json) : (getInt v).isSome ↔ IsNumber v := by
  cases v <;> simp [getInt, IsNumber]

variable {payload : Json} {form : ConnectForm} {host channel : String} {port : ℤ}

theorem ne_of_not_badFields (h : ¬ badFields host channel port) :
    host ≠ "" ∧ channel ≠ "" ∧ port ≠ 0 := by
  simp only [badFields, not_or, not_lt] at h
  exact ⟨h.1, h.2.1, by omega⟩

/-! ## The payload -/

/-- What the three reads before the first write give. -/
structure Fields (payload : Json) (host channel : String) (port : ℤ) : Prop where
  host : value getString "host" "" payload = some host
  channel : value getString "channel" "" payload = some channel
  port : value getInt "port" 0 payload = some port

theorem applyPayload_of_fields (h : Fields payload host channel port) (form : ConnectForm) :
    applyPayload payload form =
      if badFields host channel port then (.ok false, form)
      else if form.connectionNameCtrl = none then (.ok true, form.write host port channel)
      else
        match value getString "name" "" payload with
        | none => (.error .type_error, form.write host port channel)
        | some name => (.ok true, (form.write host port channel).writeName name) := by
  rw [applyPayload, h.host, h.channel, h.port]
  rfl

theorem applyPayload_of_not_fields (h : ∀ host channel port, ¬ Fields payload host channel port)
    (form : ConnectForm) : applyPayload payload form = (.error .type_error, form) := by
  rw [applyPayload]
  split
  next host channel port hhost hchannel hport => exact absurd ⟨hhost, hchannel, hport⟩ (h _ _ _)
  next => rfl

theorem fields_iff : (∃ host channel port, Fields payload host channel port) ↔
    (∃ members, payload = .obj members) ∧ (∀ v, find "host" payload = some v → IsText v) ∧
      (∀ v, find "channel" payload = some v → IsText v) ∧
      ∀ v, find "port" payload = some v → IsNumber v := by
  have hhost := @isSome_value_iff _ getString "host" "" payload
  have hchannel := @isSome_value_iff _ getString "channel" "" payload
  have hport := @isSome_value_iff _ getInt "port" 0 payload
  simp only [isSome_getString, isSome_getInt] at hhost hchannel hport
  constructor
  · rintro ⟨host, channel, port, h⟩
    have hobject := hhost.1 (by rw [h.host]; rfl)
    exact ⟨hobject.1, hobject.2, (hchannel.1 (by rw [h.channel]; rfl)).2,
      (hport.1 (by rw [h.port]; rfl)).2⟩
  · rintro ⟨hobject, htext, htext', hnumber⟩
    obtain ⟨host, h⟩ := Option.isSome_iff_exists.1 (hhost.2 ⟨hobject, htext⟩)
    obtain ⟨channel, h'⟩ := Option.isSome_iff_exists.1 (hchannel.2 ⟨hobject, htext'⟩)
    obtain ⟨port, h''⟩ := Option.isSome_iff_exists.1 (hport.2 ⟨hobject, hnumber⟩)
    exact ⟨host, channel, port, h, h', h''⟩

/-- The checks read the values of the link's own members. -/
theorem Fields.found (h : Fields payload host channel port)
    (hgood : ¬ badFields host channel port) :
    find "host" payload = some (.str host) ∧ find "channel" payload = some (.str channel) ∧
      ∃ v, find "port" payload = some v ∧ getInt v = some port := by
  obtain ⟨hhost, hchannel, hport⟩ := ne_of_not_badFields hgood
  obtain ⟨v, hv, hget⟩ := find_of_value h.host hhost
  obtain ⟨v', hv', hget'⟩ := find_of_value h.channel hchannel
  rw [getString_eq_some] at hget hget'
  subst hget hget'
  exact ⟨hv, hv', find_of_value h.port hport⟩

theorem Fields.acceptable_iff (h : Fields payload host channel port) :
    Acceptable payload ↔ ¬ badFields host channel port := by
  constructor
  · rintro ⟨host', channel', v, port', hhost, hchannel, hport, hget, hgood⟩
    have h₁ := h.host
    have h₂ := h.channel
    have h₃ := h.port
    rw [value_of_find hhost] at h₁
    rw [value_of_find hchannel] at h₂
    rw [value_of_find hport, hget] at h₃
    cases h₁
    cases h₂
    cases h₃
    exact hgood
  · intro hgood
    obtain ⟨hhost, hchannel, v, hport, hget⟩ := h.found hgood
    exact ⟨host, channel, v, port, hhost, hchannel, hport, hget, hgood⟩

/-- The port that passes the checks is the link's own exactly when the link's is an integer that an
`int` holds. -/
theorem Fields.intPort_iff (h : Fields payload host channel port)
    (hgood : ¬ badFields host channel port) :
    IntPort payload ↔ find "port" payload = some (.int port) := by
  obtain ⟨-, -, v, hv, hget⟩ := h.found hgood
  constructor
  · rintro ⟨p, hp, hfits⟩
    cases hv.symm.trans hp
    rw [getInt_of_fits hfits] at hget
    rw [hp, Option.some.inj hget]
  · intro hp
    simp only [badFields, not_or, not_lt] at hgood
    exact ⟨port, hp, by omega, by omega⟩

theorem Fields.taken (h : Fields payload host channel port) (hgood : ¬ badFields host channel port)
    (hint : form.portCtrl ≠ none → IntPort payload)
    {form' : ConnectForm} (hhost : form'.hostCtrl = setValue host form.hostCtrl)
    (hport : form'.portCtrl = setValue (toString port) form.portCtrl)
    (hchannel : form'.channelCtrl = setValue channel form.channelCtrl)
    (hname : ∀ name, find "name" payload = some (.str name) → name ≠ "" →
      form'.connectionNameCtrl = setValue name form.connectionNameCtrl)
    (hkept : (∀ name, find "name" payload = some (.str name) → name = "") →
      form'.connectionNameCtrl = form.connectionNameCtrl) : Taken payload form form' := by
  obtain ⟨hfind, hfind', -⟩ := h.found hgood
  exact
    { host := ⟨host, hfind, hhost⟩
      port := fun hctrl => by
        obtain ⟨old, hold⟩ := Option.ne_none_iff_exists'.1 hctrl
        exact ⟨port, (h.intPort_iff hgood).1 (hint hctrl), by rw [hport, hold]; rfl⟩
      noPort := fun hctrl => by rw [hport, hctrl]; rfl
      channel := ⟨channel, hfind', hchannel⟩
      name := hname
      keptName := hkept }

/-- Where the form shows the port, the port that was read is the link's. -/
theorem Fields.intPort_of_taken (h : Fields payload host channel port)
    (hgood : ¬ badFields host channel port) {form' : ConnectForm}
    (htaken : Taken payload form form')
    (hport : form'.portCtrl = setValue (toString port) form.portCtrl)
    (hctrl : form.portCtrl ≠ none) : IntPort payload := by
  obtain ⟨p, hfind, hshown⟩ := htaken.port hctrl
  obtain ⟨old, hold⟩ := Option.ne_none_iff_exists'.1 hctrl
  have htext : toString port = toString p := by
    rw [hport, hold] at hshown
    exact Option.some.inj hshown
  rw [h.intPort_iff hgood, Int.repr_injective htext, hfind]

/-- Without a control for the name, the name does not count. -/
theorem Fields.taken_of_no_ctrl (h : Fields payload host channel port)
    (hgood : ¬ badFields host channel port) (hint : form.portCtrl ≠ none → IntPort payload)
    (hctrl : form.connectionNameCtrl = none) :
    Taken payload form (form.write host port channel) := by
  refine h.taken hgood hint rfl rfl rfl ?_ fun _ => rfl
  intro name _ _
  show form.connectionNameCtrl = _
  rw [hctrl]
  rfl

theorem writeName_portCtrl (name : String) (form : ConnectForm) :
    (form.writeName name).portCtrl = form.portCtrl := by
  unfold writeName
  split_ifs <;> rfl

theorem Fields.taken_writeName (h : Fields payload host channel port)
    (hgood : ¬ badFields host channel port) (hint : form.portCtrl ≠ none → IntPort payload)
    {name : String}
    (hname : value getString "name" "" payload = some name) :
    Taken payload form ((form.write host port channel).writeName name) := by
  by_cases hempty : name = ""
  · rw [writeName, if_pos hempty]
    refine h.taken hgood hint rfl rfl rfl ?_ fun _ => rfl
    intro name' hfind hne
    rw [value_of_find hfind] at hname
    exact absurd ((Option.some.inj hname).trans hempty) hne
  · obtain ⟨v, hfind, hget⟩ := find_of_value hname hempty
    rw [getString_eq_some] at hget
    subst hget
    rw [writeName, if_neg hempty]
    refine h.taken hgood hint rfl rfl rfl ?_ fun hall => absurd (hall name hfind) hempty
    intro name' hfind' _
    cases hfind.symm.trans hfind'
    rfl

/-- The run over a payload against the condition on it. -/
theorem appliedWhole_payload {uri : List UInt8} (h : linkPayload json uri = some payload) :
    AppliedWhole json uri form ↔ Readable payload form := by
  have hrun : ApplyConnectUri json uri form = applyPayload payload form := by
    rw [ApplyConnectUri, h]
  rw [AppliedWhole, hrun]
  by_cases hfields : ∃ host channel port, Fields payload host channel port
  · obtain ⟨hobject, hhost, hchannel, hport⟩ := fields_iff.1 hfields
    obtain ⟨host, channel, port, hf⟩ := hfields
    have hname := @isSome_value_iff _ getString "name" "" payload
    simp only [isSome_getString] at hname
    rw [applyPayload_of_fields hf]
    by_cases hbad : badFields host channel port
    · -- refused before anything is written
      rw [if_pos hbad]
      have hacc : ¬ Acceptable payload := fun hacc => hf.acceptable_iff.1 hacc hbad
      exact ⟨fun _ => ⟨hobject, hhost, hchannel, hport, fun h => absurd h hacc,
        fun h => absurd h hacc⟩, fun _ => rfl⟩
    rw [if_neg hbad]
    have hacc : Acceptable payload := hf.acceptable_iff.2 hbad
    -- what was read is what the link says wherever the form shows it
    have hint {form' : ConnectForm}
        (hctrl : form'.portCtrl = setValue (toString port) form.portCtrl)
        (htaken : ∃ payload', linkPayload json uri = some payload' ∧ Taken payload' form form') :
        form.portCtrl ≠ none → IntPort payload := by
      obtain ⟨payload', hlink, htaken⟩ := htaken
      obtain rfl : payload = payload' := Option.some.inj (h.symm.trans hlink)
      exact hf.intPort_of_taken hbad htaken hctrl
    by_cases hctrl : form.connectionNameCtrl = none
    · rw [if_pos hctrl]
      exact ⟨fun htaken => ⟨hobject, hhost, hchannel, hport, fun _ => hint rfl htaken,
          fun _ hne => absurd hctrl hne⟩,
        fun hread => ⟨payload, h, hf.taken_of_no_ctrl hbad (hread.shownPort hacc) hctrl⟩⟩
    rw [if_neg hctrl]
    cases hvalue : value getString "name" "" payload with
    | none =>
      -- the exception behind the three writes
      refine ⟨False.elim, fun hread => ?_⟩
      have htext := hname.2 ⟨hobject, hread.name hacc hctrl⟩
      rw [hvalue] at htext
      cases htext
    | some name =>
      rw [hvalue] at hname
      exact ⟨fun htaken => ⟨hobject, hhost, hchannel, hport,
          fun _ => hint (writeName_portCtrl name _) htaken, fun _ _ => (hname.1 rfl).2⟩,
        fun hread => ⟨payload, h, hf.taken_writeName hbad (hread.shownPort hacc) hvalue⟩⟩
  · rw [applyPayload_of_not_fields fun host channel port hf => hfields ⟨host, channel, port, hf⟩]
    exact ⟨False.elim, fun hread => hfields
      (fields_iff.2 ⟨hread.object, hread.host, hread.channel, hread.port⟩)⟩

/-- A link is applied whole or not at all exactly when the JSON value that it carries, if it carries
one, is an object whose fields have their types wherever they are read, and whose port is an integer
that an `int` holds wherever it is shown. -/
theorem applied_whole_iff (uri : List UInt8) (form : ConnectForm) :
    AppliedWhole json uri form ↔
      ∀ payload, linkPayload json uri = some payload → Readable payload form := by
  cases hlink : linkPayload json uri with
  | none =>
    rw [AppliedWhole, ApplyConnectUri, hlink]
    simp
  | some payload => simp [appliedWhole_payload json hlink]

/-! ## What a link can do to the form -/

/-- Behind the marker every data but the empty one is read back as it was encoded. -/
theorem linkPayload_link {data : List UInt8} (hdata : data ≠ []) :
    linkPayload json (Text.utf8 marker ++ Base64.encodeUrl data) = json.parse data := by
  have hbytes : linkBytes (Text.utf8 marker ++ Base64.encodeUrl data) = some data := by
    rw [linkBytes, startsWith_scheme, if_neg (by decide), search_marker]
    show (if ((List.drop _ (Text.utf8 marker ++ Base64.encodeUrl data)).rdropWhile
      isspace).rdropWhile _ = [] then _ else _) = _
    rw [List.drop_left, trimmed_encodeUrl, if_neg (encodeUrl_ne_nil hdata),
      base64UrlDecode_encodeUrl]
  rw [linkPayload, hbytes, Option.bind_some]

/-- A name of another type throws with host, port and channel written. -/
theorem applyPayload_written (h : Fields payload host channel port)
    (hgood : ¬ badFields host channel port) (hctrl : form.connectionNameCtrl ≠ none) {v : Json}
    (hname : find "name" payload = some v) (hne : ¬ IsText v) :
    applyPayload payload form = (.error .type_error, form.write host port channel) := by
  have hnone : value getString "name" "" payload = none := by
    rw [value_of_find hname]
    by_contra hsome
    exact hne ((isSome_getString v).1 (Option.isSome_iff_ne_none.2 hsome))
  rw [applyPayload_of_fields h, if_neg hgood, if_neg hctrl, hnone]

/-! ## A name that is a number -/

/-- The form as the window builds it. -/
def initialForm : ConnectForm := ⟨some "127.0.0.1", some "5500", some "global", some "Default"⟩

def numberName : Json := .obj [("host", .str "a"), ("channel", .str "b"), ("port", .int 1),
  ("name", .int 5)]

def numberNameText : List UInt8 := Text.utf8 (plainText numberName)

/-- The libraries on the text of `numberName`. -/
def numberNameTexts : JsonTexts :=
  { knownTexts with parse := fun bytes => if bytes = numberNameText then some numberName else none }

def numberNameLink : List UInt8 :=
  Text.utf8 "owalkie://connect/eyJob3N0IjoiYSIsImNoYW5uZWwiOiJiIiwicG9ydCI6MSwibmFtZSI6NX0".toList

/-- Three controls show the link and the fourth does not. -/
theorem number_name_half_applied :
    ApplyConnectUri numberNameTexts numberNameLink initialForm =
        (.error .type_error, ⟨some "a", some "1", some "b", some "Default"⟩) ∧
      ¬ AppliedWhole numberNameTexts numberNameLink initialForm := by
  have hrun : ApplyConnectUri numberNameTexts numberNameLink initialForm =
      (.error .type_error, ⟨some "a", some "1", some "b", some "Default"⟩) := by
    have hlink : numberNameLink = Text.utf8 marker ++ Base64.encodeUrl numberNameText := by
      decide +kernel
    have hpayload : linkPayload numberNameTexts numberNameLink = some numberName := by
      rw [hlink, linkPayload_link numberNameTexts (by decide +kernel)]
      show (if numberNameText = numberNameText then some numberName else none) = _
      rw [if_pos rfl]
    have hfields : Fields numberName "a" "b" 1 := ⟨rfl, rfl, rfl⟩
    rw [ApplyConnectUri, hpayload]
    exact applyPayload_written hfields (by decide) (Option.some_ne_none _) rfl
      (by simp [IsText])
  refine ⟨hrun, ?_⟩
  rw [AppliedWhole, hrun]
  exact id

end ConnectForm

end OWalkie
