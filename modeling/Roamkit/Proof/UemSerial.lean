import Roamkit.Lib.Singles
import Roamkit.Organizations.UemSerial

/-!
# What resolving a serial comes to

Each stage translates what it raises itself; what Python raises below it, of a body that
is no UTF-8 or no JSON, of a number or a header, passes through all of them. So the five
errors of the look-up are all there are exactly when nothing of that kind is answered.
-/

namespace Roamkit.Organizations.Proof

open Lib

variable {u : UemCall} {cache : TokenCache} {esims : Table EsimRow} {serial : String}
  {p : Exc → Prop}

/-! ## What is asked for -/

/-- The errors of the look-up. -/
def IsUemError : Exc → Prop
  | .deviceNotFound _ | .deviceAmbiguous _ | .uemInventoryUnavailable _ | .iccidNotFound _
    | .iccidAmbiguous _ => True
  | _ => False

/-- The answer is no error, and its body is read as this value. -/
def Gives (r : JsonReader) (answer : Answer) (j : Json) : Prop :=
  ∃ code body raw, answer = .reply code body ∧ 200 ≤ code ∧ code < 300
    ∧ String.fromUTF8? body = some raw
    ∧ if raw = "" then j = .dict [] else r.loads raw = some j

/-- The answer has come to its end, and is no JSON only when it is an error. -/
def Legible (r : JsonReader) : Answer → Prop
  | .reply code body => 200 ≤ code → code < 300 → ∃ j, Gives r (.reply code body) j
  | .urlError _ => True
  | .broken => False

/-- A serial is looked up in UEM: it is not blank, and the client is ready. -/
def Asked (u : UemCall) (serial : String) : Prop :=
  PyText.strip serial ≠ "" ∧ u.settings.enabled = true ∧ u.settings.client.missing = []

/-- The token of a call: the one in the cache while it lasts, else that of the answer. -/
def HasToken (u : UemCall) (cache : TokenCache) (token : Json) : Prop :=
  if cache.isValid u.now then token = cache.accessToken
  else token.truthy = true ∧ ∃ parsed, Gives u.reader u.tokenAnswer parsed
    ∧ token = accessToken parsed

/-- The devices that UEM lists, where it is asked. -/
def Listed (u : UemCall) (cache : TokenCache) (serial : String) (devices : List Json) : Prop :=
  Asked u serial ∧ (∃ token, HasToken u cache token)
    ∧ ∃ payload rows, Gives u.reader u.devicesAnswer payload
    ∧ payload.get "devices" = .list rows ∧ devices = rows.filter (·.isDict)

/-- The device has the serial. -/
def HasSerial (u : UemCall) (serial : String) (device : Json) : Prop :=
  stripped u.writer device "serialNumber" = .ok (PyText.strip serial)

/-- The device has the ICCID, which its list of SIMs has too where it has a list. -/
def HasIccid (w : Json.Writer) (device : Json) (iccid : String) : Prop :=
  iccid ≠ "" ∧ stripped w device "iccid" = .ok iccid
    ∧ (device.get "sims" = .null ∨ ∃ sims, device.get "sims" = .list sims
      ∧ ∃ sim ∈ sims, sim.isDict = true ∧ stripped w sim "iccid" = .ok iccid)

/-- The one eSIM with the ICCID that is not archived. -/
def IsEsimOf (esims : Table EsimRow) (iccid : String) (esim : EsimRow) : Prop :=
  esim ∈ esims ∧ (esim.iccid = iccid ∧ esim.archivedAt = none)
    ∧ ∀ e ∈ esims, e.iccid = iccid ∧ e.archivedAt = none → e = esim

/-- The serial leads to the eSIM. -/
def LeadsTo (u : UemCall) (esims : Table EsimRow) (cache : TokenCache) (serial : String)
    (esim : EsimRow) : Prop :=
  ∃ devices device iccid, Listed u cache serial devices ∧ IsSole devices (HasSerial u serial) device
    ∧ HasIccid u.writer device iccid ∧ IsEsimOf esims iccid esim

/-- A serial is resolved to the eSIM it leads to, and otherwise one of the five errors is raised. -/
structure ResolvesWell (u : UemCall) (esims : Table EsimRow) (cache : TokenCache)
    (serial : String) : Prop where
  found : ∀ esim, (resolveEsimBySerial u esims cache serial).1 = .ok esim
    ↔ LeadsTo u esims cache serial esim
  raised : RaisesOnly IsUemError (resolveEsimBySerial u esims cache serial).1

/-- An answer with a token says how long it lasts. -/
def Lasts (parsed : Json) : Prop := ∃ n, expiresIn parsed = .ok n ∧ fitsFloat (lifetime n) = true

/-- Nothing is answered, and nothing cached, that Python stumbles over. -/
structure Connects (u : UemCall) (cache : TokenCache) : Prop where
  token : cache.isValid u.now = false → Legible u.reader u.tokenAnswer
    ∧ ∀ parsed, Gives u.reader u.tokenAnswer parsed → (accessToken parsed).truthy = true
      → Lasts parsed
  header : ∀ token, HasToken u cache token → sendToken u.writer token = .ok ()
  devices : (∃ token, HasToken u cache token) → Legible u.reader u.devicesAnswer

/-- Nor has the device an ICCID that the database does not take. -/
structure Clean (u : UemCall) (cache : TokenCache) (serial : String) :
    Prop extends Connects u cache where
  iccid : ∀ devices device iccid, Listed u cache serial devices
    → IsSole devices (HasSerial u serial) device →
    HasIccid u.writer device iccid → isStorable iccid = true

/-! ## Single answers -/

/-- A handler that makes one of the five of the client's own errors, and nothing of what Python
raises. -/
structure Translates (p : Exc → Prop) : Prop where
  client : ∀ message, p (.blackberryUemClient message)
  transport : ¬ p .transport
  value : ¬ p .valueError
  type : ¬ p .typeError
  overflow : ¬ p .overflowError

theorem require_ok {holds : Bool} {e : Exc} {v : Unit} :
    require holds e = .ok v ↔ holds = true := by
  unfold require
  split
  · rename_i h
    exact iff_of_true rfl h
  · rename_i h
    exact iff_of_false (fun hc => nomatch hc) h

theorem raisesOnly_require {holds : Bool} {e : Exc} (h : p e) : RaisesOnly p (require holds e) := by
  unfold require
  split
  · exact raisesOnly_ok
  · exact raisesOnly_error.2 h

variable {r : JsonReader} {returned : Nat → String} {failed : String} {answer : Answer}

theorem fetch_ok {j : Json} : fetch r returned failed answer = .ok j ↔ Gives r answer j := by
  constructor
  · intro h
    unfold fetch at h
    split at h
    · rename_i code body
      split at h
      · cases h
      rename_i hcode
      split at h
      · cases h
      rename_i raw hraw
      refine ⟨code, body, raw, rfl, by omega, by omega, hraw, ?_⟩
      split at h
      · rename_i hempty
        rw [if_pos hempty]
        cases h
        rfl
      · rename_i hne
        rw [if_neg hne]
        split at h
        · cases h
        rename_i parsed hparsed
        cases h
        exact hparsed
    · cases h
    · cases h
  · rintro ⟨code, body, raw, rfl, hfrom, hto, hraw, hread⟩
    unfold fetch
    dsimp only
    rw [if_neg (by omega), hraw]
    dsimp only
    by_cases hempty : raw = ""
    · rw [if_pos hempty] at hread ⊢
      rw [hread]
    · rw [if_neg hempty] at hread ⊢
      rw [hread]

variable {j payload token : Json} {devices : List Json} {iccid : String}

theorem gives_unique {j' : Json} (h : Gives r answer j) (h' : Gives r answer j') : j = j' := by
  have heq := (@fetch_ok r (fun _ => "") "" answer j).2 h
  rw [fetch_ok.2 h'] at heq
  cases heq
  rfl

theorem fetch_raises (hp : Translates p) :
    RaisesOnly p (fetch r returned failed answer) ↔ Legible r answer := by
  cases hfetch : fetch r returned failed answer with
  | ok j =>
    refine iff_of_true raisesOnly_ok ?_
    have hgives := fetch_ok.1 hfetch
    cases answer with
    | reply code body => exact fun _ _ => ⟨j, hgives⟩
    | urlError reason => trivial
    | broken =>
      obtain ⟨code, body, raw, hc, -⟩ := hgives
      cases hc
  | error e =>
    have hnone : ∀ j, ¬ Gives r answer j := fun j hj => by
      rw [fetch_ok.2 hj] at hfetch
      cases hfetch
    rw [raisesOnly_error]
    unfold fetch at hfetch
    split at hfetch
    · rename_i code body
      split at hfetch
      · rename_i hcode
        cases hfetch
        exact iff_of_true (hp.client _) fun hfrom hto => absurd hcode (by omega)
      · rename_i hcode
        -- the body of an answer that is no error is no JSON
        have hvalue : e = .valueError := by
          split at hfetch
          · cases hfetch
            rfl
          · split at hfetch
            · cases hfetch
            split at hfetch
            · cases hfetch
              rfl
            · cases hfetch
        rw [hvalue]
        refine iff_of_false hp.value fun hlegible => ?_
        obtain ⟨j, hj⟩ := hlegible (by omega) (by omega)
        exact hnone j hj
    · cases hfetch
      exact iff_of_true (hp.client _) trivial
    · cases hfetch
      exact iff_of_false hp.transport id

/-! ## The token -/

theorem expiresIn_raises (hp : Translates p) {parsed : Json} :
    RaisesOnly p (expiresIn parsed) ↔ ∃ n, expiresIn parsed = .ok n := by
  cases hn : expiresIn parsed with
  | ok n => exact iff_of_true raisesOnly_ok ⟨n, rfl⟩
  | error e =>
    rw [raisesOnly_error]
    refine iff_of_false ?_ fun ⟨n, hc⟩ => nomatch hc
    unfold expiresIn Airalo.number at hn
    split at hn
    · cases hn
    · cases hn
      exact hp.value
    · cases hn
      exact hp.value
    · cases hn
      exact hp.type

theorem tokenReply_raises (hp : Translates p) :
    RaisesOnly p (tokenReply u) ↔ Legible u.reader u.tokenAnswer
    ∧ ∀ parsed, Gives u.reader u.tokenAnswer parsed → (accessToken parsed).truthy = true →
      ∃ n, expiresIn parsed = .ok n := by
  unfold tokenReply
  rw [raisesOnly_bind, fetch_raises hp]
  refine and_congr_right fun _ => forall_congr' fun parsed => ?_
  rw [fetch_ok]
  refine imp_congr_right fun _ => ?_
  rw [raisesOnly_bind, and_iff_right (raisesOnly_require (hp.client _))]
  constructor
  · intro h htruthy
    have hexpires := (raisesOnly_bind.1 (h () (require_ok.2 htruthy))).1
    exact (expiresIn_raises hp).1 hexpires
  · intro h _ hrequire
    rw [raisesOnly_bind, expiresIn_raises hp]
    exact ⟨h (require_ok.1 hrequire), fun n _ => raisesOnly_ok⟩

theorem tokenReply_ok {n : Int} : tokenReply u = .ok (token, n)
    ↔ ∃ parsed, Gives u.reader u.tokenAnswer parsed ∧ (accessToken parsed).truthy = true
      ∧ expiresIn parsed = .ok n ∧ token = accessToken parsed := by
  unfold tokenReply
  constructor
  · intro h
    obtain ⟨parsed, hparsed, h⟩ := bind_ok h
    obtain ⟨_, hrequire, h⟩ := bind_ok h
    obtain ⟨n', hn, h⟩ := bind_ok h
    cases h
    exact ⟨parsed, fetch_ok.1 hparsed, require_ok.1 hrequire, hn, rfl⟩
  · rintro ⟨parsed, hparsed, htruthy, hn, rfl⟩
    exact bind_ok_iff.2 ⟨parsed, fetch_ok.2 hparsed, bind_ok_iff.2 ⟨(), require_ok.2 htruthy,
      bind_ok_iff.2 ⟨n, hn, rfl⟩⟩⟩

theorem getAccessToken_raises (hp : Translates p) : RaisesOnly p (getAccessToken u cache).1
    ↔ (cache.isValid u.now = false → Legible u.reader u.tokenAnswer
      ∧ ∀ parsed, Gives u.reader u.tokenAnswer parsed → (accessToken parsed).truthy = true
        → Lasts parsed) := by
  unfold getAccessToken
  by_cases hvalid : cache.isValid u.now = true
  · rw [if_pos hvalid, hvalid]
    exact iff_of_true raisesOnly_ok fun hc => nomatch hc
  · rw [if_neg hvalid, Bool.eq_false_of_not_eq_true hvalid]
    cases hreply : tokenReply u with
    | error e =>
      have hraises := tokenReply_raises (u := u) hp
      rw [hreply] at hraises
      dsimp only
      constructor
      · intro h _
        obtain ⟨hlegible, hexpires⟩ := hraises.1 (raisesOnly_error.2 (raisesOnly_error.1 h))
        refine ⟨hlegible, fun parsed hparsed htruthy => ?_⟩
        obtain ⟨n, hn⟩ := hexpires parsed hparsed htruthy
        have hok := tokenReply_ok.2 ⟨parsed, hparsed, htruthy, hn, rfl⟩
        rw [hreply] at hok
        cases hok
      · intro h
        obtain ⟨hlegible, hlasts⟩ := h rfl
        refine raisesOnly_error.2
          (raisesOnly_error.1 (hraises.2 ⟨hlegible, fun parsed hparsed htruthy => ?_⟩))
        obtain ⟨n, hn, -⟩ := hlasts parsed hparsed htruthy
        exact ⟨n, hn⟩
    | ok reply =>
      obtain ⟨token, n⟩ := reply
      obtain ⟨parsed, hparsed, htruthy, hn, rfl⟩ := tokenReply_ok.1 hreply
      dsimp only
      by_cases hfits : fitsFloat (lifetime n) = true
      · rw [if_pos hfits]
        refine iff_of_true raisesOnly_ok fun _ => ⟨?_, fun parsed' hparsed' _ => ?_⟩
        · exact ((tokenReply_raises hp).1 (hreply ▸ raisesOnly_ok)).1
        · rw [gives_unique hparsed' hparsed]
          exact ⟨n, hn, hfits⟩
      · rw [if_neg hfits, raisesOnly_error]
        refine iff_of_false hp.overflow fun h => ?_
        obtain ⟨n', hn', hfits'⟩ := (h rfl).2 parsed hparsed htruthy
        rw [hn] at hn'
        cases hn'
        exact hfits hfits'

theorem getAccessToken_ok
    (hlasts : cache.isValid u.now = false →
    ∀ parsed, Gives u.reader u.tokenAnswer parsed → (accessToken parsed).truthy = true
      → Lasts parsed) :
    (getAccessToken u cache).1 = .ok token ↔ HasToken u cache token := by
  unfold getAccessToken HasToken
  by_cases hvalid : cache.isValid u.now = true
  · rw [if_pos hvalid, if_pos hvalid, Except.ok.injEq]
    exact eq_comm
  · rw [if_neg hvalid, if_neg hvalid]
    have hlasts := hlasts (Bool.eq_false_of_not_eq_true hvalid)
    constructor
    · intro hok
      split at hok
      · cases hok
      rename_i token' n hreply
      obtain ⟨parsed, hparsed, htruthy, -, rfl⟩ := tokenReply_ok.1 hreply
      split at hok
      · cases hok
        exact ⟨htruthy, parsed, hparsed, rfl⟩
      · cases hok
    · rintro ⟨htruthy, parsed, hparsed, rfl⟩
      obtain ⟨n, hn, hfits⟩ := hlasts parsed hparsed htruthy
      rw [tokenReply_ok.2 ⟨parsed, hparsed, htruthy, hn, rfl⟩]
      dsimp only
      rw [if_pos hfits]

theorem Connects.hasToken (h : Connects u cache) :
    (getAccessToken u cache).1 = .ok token ↔ HasToken u cache token :=
  getAccessToken_ok fun hvalid => (h.token hvalid).2

/-! ## The list of the devices -/

theorem sendToken_raises (hp : Translates p) :
    RaisesOnly p (sendToken u.writer token) ↔ sendToken u.writer token = .ok () := by
  cases hsend : sendToken u.writer token with
  | ok v => exact iff_of_true raisesOnly_ok rfl
  | error e =>
    have hvalue : RaisesOnly (· = Exc.valueError) (sendToken u.writer token) := by
      unfold sendToken
      rw [raisesOnly_bind]
      refine ⟨?_, fun _ _ => raisesOnly_require rfl⟩
      unfold Airalo.text
      split
      · exact raisesOnly_ok
      · exact raisesOnly_error.2 rfl
    rw [raisesOnly_error, hvalue e hsend]
    exact iff_of_false hp.value fun hc => nomatch hc

theorem requestDevices_raises (hp : Translates p) : RaisesOnly p (requestDevices u token)
    ↔ sendToken u.writer token = .ok () ∧ Legible u.reader u.devicesAnswer := by
  unfold requestDevices
  rw [raisesOnly_bind, sendToken_raises hp]
  refine and_congr_right fun hsend => ?_
  have hrest : RaisesOnly p (do
      let parsed ← fetch u.reader
        (fun code => "UEM API returned " ++ toString code ++ " for GET /devices")
        "UEM API request failed: " u.devicesAnswer
      require parsed.isDict (.blackberryUemClient "UEM API returned unexpected JSON payload")
      return parsed) ↔ Legible u.reader u.devicesAnswer := by
    rw [raisesOnly_bind, fetch_raises hp]
    refine and_iff_left fun parsed _ => ?_
    rw [raisesOnly_bind]
    exact ⟨raisesOnly_require (hp.client _), fun _ _ => raisesOnly_ok⟩
  constructor
  · intro h
    exact hrest.1 (h () hsend)
  · intro h _ _
    exact hrest.2 h

theorem requestDevices_ok : requestDevices u token = .ok payload
    ↔ sendToken u.writer token = .ok () ∧ Gives u.reader u.devicesAnswer payload
      ∧ payload.isDict = true := by
  unfold requestDevices
  constructor
  · intro h
    obtain ⟨_, hsend, h⟩ := bind_ok h
    obtain ⟨parsed, hparsed, h⟩ := bind_ok h
    obtain ⟨_, hrequire, h⟩ := bind_ok h
    cases h
    exact ⟨hsend, fetch_ok.1 hparsed, require_ok.1 hrequire⟩
  · rintro ⟨hsend, hgives, hdict⟩
    exact bind_ok_iff.2 ⟨(), hsend, bind_ok_iff.2 ⟨payload, fetch_ok.2 hgives,
      bind_ok_iff.2 ⟨(), require_ok.2 hdict, rfl⟩⟩⟩

theorem devicesOf_ok : devicesOf payload = .ok devices
    ↔ ∃ rows, payload.get "devices" = .list rows ∧ devices = rows.filter (·.isDict) := by
  unfold devicesOf
  split
  · rename_i rows hrows
    rw [hrows]
    constructor
    · intro h
      cases h
      exact ⟨rows, rfl, rfl⟩
    · rintro ⟨rows', heq, rfl⟩
      cases heq
      rfl
  · rename_i hno
    constructor
    · intro h
      cases h
    · rintro ⟨rows, heq, -⟩
      exact absurd heq (hno rows)

theorem isDict_of_get {rows : List Json} (h : payload.get "devices" = .list rows) :
    payload.isDict = true := by
  cases payload with
  | dict kvs => rfl
  | null => cases h
  | bool b => cases h
  | int n => cases h
  | float x => cases h
  | str t => cases h
  | list xs => cases h

theorem ensureReady_ok {settings : UemSettings} {v : Unit} :
    ensureReady settings = .ok v ↔ settings.enabled = true ∧ settings.client.missing = [] := by
  unfold ensureReady
  split
  · rename_i hdisabled
    exact iff_of_false (fun hc => nomatch hc) fun h => hdisabled h.1
  · rename_i henabled
    split
    · rename_i hmissing
      exact iff_of_false (fun hc => nomatch hc) fun h => hmissing h.2
    · rename_i hready
      exact iff_of_true rfl ⟨not_not.1 henabled, not_not.1 hready⟩

theorem listDevices_eq (h : Asked u serial) : (listDevices u cache).1
    = (getAccessToken u cache).1 >>= fun token => requestDevices u token >>= devicesOf := by
  unfold listDevices
  rw [(ensureReady_ok (v := ())).2 h.2]

theorem listDevices_raises (hp : Translates p) (h : Asked u serial) :
    RaisesOnly p (listDevices u cache).1 ↔ Connects u cache := by
  have hrest : ∀ token, RaisesOnly p (requestDevices u token >>= devicesOf)
      ↔ sendToken u.writer token = .ok () ∧ Legible u.reader u.devicesAnswer := by
    intro token
    rw [raisesOnly_bind, requestDevices_raises hp]
    refine and_iff_left fun payload _ => ?_
    unfold devicesOf
    split
    · exact raisesOnly_ok
    · exact raisesOnly_error.2 (hp.client _)
  rw [listDevices_eq h, raisesOnly_bind]
  constructor
  · rintro ⟨htoken, hdevices⟩
    have htoken := (getAccessToken_raises hp).1 htoken
    have hsent : ∀ token, HasToken u cache token →
        sendToken u.writer token = .ok () ∧ Legible u.reader u.devicesAnswer := fun token hhas =>
      (hrest token).1 (hdevices token ((getAccessToken_ok fun hvalid => (htoken hvalid).2).2 hhas))
    exact ⟨htoken, fun token hhas => (hsent token hhas).1,
      fun ⟨token, hhas⟩ => (hsent token hhas).2⟩
  · intro hc
    refine ⟨(getAccessToken_raises hp).2 hc.token, fun token htoken => ?_⟩
    have htoken := hc.hasToken.1 htoken
    exact (hrest token).2 ⟨hc.header token htoken, hc.devices ⟨token, htoken⟩⟩

theorem listDevices_ok (h : Asked u serial) (hc : Connects u cache) :
    (listDevices u cache).1 = .ok devices ↔ Listed u cache serial devices := by
  rw [listDevices_eq h]
  constructor
  · intro hok
    obtain ⟨token, htoken, hok⟩ := bind_ok hok
    obtain ⟨payload, hpayload, hok⟩ := bind_ok hok
    obtain ⟨rows, hrows⟩ := devicesOf_ok.1 hok
    exact ⟨h, ⟨token, hc.hasToken.1 htoken⟩, payload, rows,
      (requestDevices_ok.1 hpayload).2.1, hrows⟩
  · rintro ⟨-, ⟨token, htoken⟩, payload, rows, hgives, hrows, hdevices⟩
    exact bind_ok_iff.2 ⟨token, hc.hasToken.2 htoken, bind_ok_iff.2 ⟨payload,
      requestDevices_ok.2 ⟨hc.header token htoken, hgives, isDict_of_get hrows⟩,
        devicesOf_ok.2 ⟨rows, hrows, hdevices⟩⟩⟩

/-! ## The device -/

theorem gives_writable (h : Gives r answer j) : j.Writable := by
  obtain ⟨code, body, raw, -, -, -, -, hread⟩ := h
  by_cases hempty : raw = ""
  · rw [if_pos hempty] at hread
    rw [hread]
    intro n hn
    cases hn with
    | value hkv _ => cases hkv
  · rw [if_neg hempty] at hread
    exact r.writable raw j hread

theorem listed_writable (h : Listed u cache serial devices) {device : Json}
    (hdevice : device ∈ devices) : device.Writable := by
  obtain ⟨-, -, payload, rows, hgives, hrows, rfl⟩ := h
  have hwritable := (gives_writable hgives).get "devices"
  rw [hrows] at hwritable
  exact hwritable.item (List.mem_filter.1 hdevice).1

/-- What can be written again is read as a text. -/
theorem stripped_total (h : j.Writable) (w : Json.Writer) (key : String) :
    ∃ text, stripped w j key = .ok text := by
  obtain ⟨text, htext⟩ := ((h.get key).orElse "").toStr w
  refine ⟨PyText.strip text, ?_⟩
  unfold stripped Airalo.textOr Airalo.text
  rw [htext]
  rfl

/-- The check of `hasSerial`, where it raises nothing. -/
def serialIs (u : UemCall) (serial : String) (device : Json) : Bool :=
  match stripped u.writer device "serialNumber" with
  | .ok text => text = PyText.strip serial
  | .error _ => false

theorem serialIs_iff (device : Json) :
    serialIs u serial device = true ↔ HasSerial u serial device := by
  unfold serialIs HasSerial
  split
  · rename_i text htext
    rw [htext, decide_eq_true_eq, Except.ok.injEq]
  · rename_i e herror
    rw [herror]
    exact iff_of_false Bool.false_ne_true fun hc => nomatch hc

theorem hits_eq (h : Listed u cache serial devices) :
    devices.filterM (hasSerial u.writer (PyText.strip serial))
      = .ok (devices.filter (serialIs u serial)) := by
  refine filterM_ok fun device hdevice => ?_
  obtain ⟨text, htext⟩ := stripped_total (listed_writable h hdevice) u.writer "serialNumber"
  unfold hasSerial serialIs
  rw [htext]
  rfl

theorem oneMatch_ok {hits : List Json} {device : Json} :
    oneMatch hits = .ok device ↔ hits = [device] := by
  unfold oneMatch
  split
  · exact iff_of_false (fun hc => nomatch hc) fun hc => nomatch hc
  · rw [Except.ok.injEq, List.singleton_inj]
  · rename_i hone
    exact iff_of_false (fun hc => nomatch hc) (hone device)

theorem oneMatch_raises (hp : Translates p) (hits : List Json) : RaisesOnly p (oneMatch hits) := by
  unfold oneMatch
  split
  · exact raisesOnly_error.2 (hp.client _)
  · exact raisesOnly_ok
  · exact raisesOnly_error.2 (hp.client _)

theorem getDeviceBySerial_eq (h : Asked u serial) :
    (getDeviceBySerial u cache (PyText.strip serial)).1
    = (listDevices u cache).1 >>= fun devices =>
      devices.filterM (hasSerial u.writer (PyText.strip serial)) >>= oneMatch := by
  unfold getDeviceBySerial
  rw [PyText.strip_strip, if_neg h.1]

theorem getDeviceBySerial_raises (hp : Translates p) (h : Asked u serial) :
    RaisesOnly p (getDeviceBySerial u cache (PyText.strip serial)).1 ↔ Connects u cache := by
  rw [getDeviceBySerial_eq h, raisesOnly_bind, listDevices_raises hp h]
  refine and_iff_left_of_imp fun hc devices hdevices => ?_
  rw [hits_eq ((listDevices_ok h hc).1 hdevices)]
  exact oneMatch_raises hp _

theorem getDeviceBySerial_ok (h : Asked u serial) (hc : Connects u cache) {device : Json} :
    (getDeviceBySerial u cache (PyText.strip serial)).1 = .ok device
      ↔ ∃ devices, Listed u cache serial devices ∧ IsSole devices (HasSerial u serial) device := by
  rw [getDeviceBySerial_eq h, bind_ok_iff]
  refine exists_congr fun devices => ?_
  rw [listDevices_ok h hc]
  refine and_congr_right fun hlisted => ?_
  rw [hits_eq hlisted]
  show oneMatch _ = _ ↔ _
  rw [oneMatch_ok, isSole_iff serialIs_iff]

/-! ## The ICCID and the eSIM -/

variable {w : Json.Writer}

theorem simIccids_mem {sims : List Json} {iccids : List String}
    (h : simIccids w sims = .ok iccids) :
    iccid ∈ iccids ↔ iccid ≠ "" ∧ ∃ sim ∈ sims, sim.isDict = true
      ∧ stripped w sim "iccid" = .ok iccid := by
  unfold simIccids at h
  obtain ⟨all, hall, h⟩ := bind_ok h
  cases h
  rw [List.mem_filter, decide_eq_true_eq, and_comm]
  refine and_congr_right fun _ => ?_
  constructor
  · intro hmem
    obtain ⟨sim, hsim, heq⟩ := mem_of_mapM hall hmem
    obtain ⟨hin, hdict⟩ := List.mem_filter.1 hsim
    exact ⟨sim, hin, hdict, heq⟩
  · rintro ⟨sim, hin, hdict, heq⟩
    obtain ⟨iccid', hmem, heq'⟩ := mapM_image hall (List.mem_filter.2 ⟨hin, hdict⟩)
    rw [heq] at heq'
    cases heq'
    exact hmem

theorem simIccids_total {sims : List Json} (h : (Json.list sims).Writable) :
    ∃ iccids, simIccids w sims = .ok iccids := by
  have hraises : RaisesOnly (fun _ => False) (simIccids w sims) := by
    unfold simIccids
    rw [raisesOnly_bind]
    refine ⟨raisesOnly_mapM fun sim hsim => ?_, fun _ _ => raisesOnly_ok⟩
    obtain ⟨text, htext⟩ := stripped_total (h.item (List.mem_filter.1 hsim).1) w "iccid"
    rw [htext]
    exact raisesOnly_ok
  cases hsims : simIccids w sims with
  | ok iccids => exact ⟨iccids, rfl⟩
  | error e => exact (hraises e hsims).elim

theorem checkSims_raises {sims : Json} (h : sims.Writable) :
    RaisesOnly IsUemError (checkSims w iccid sims) := by
  unfold checkSims
  split
  · exact raisesOnly_ok
  · rename_i rows
    obtain ⟨iccids, hiccids⟩ := simIccids_total (w := w) h
    rw [raisesOnly_bind]
    refine ⟨raisesOnly_require trivial, fun _ _ => ?_⟩
    rw [hiccids]
    exact raisesOnly_require trivial
  · exact raisesOnly_error.2 trivial

theorem checkSims_ok (hne : iccid ≠ "") {sims : Json} (h : sims.Writable) {v : Unit} :
    checkSims w iccid sims = .ok v ↔ sims = .null ∨ ∃ rows, sims = .list rows
      ∧ ∃ sim ∈ rows, sim.isDict = true ∧ stripped w sim "iccid" = .ok iccid := by
  unfold checkSims
  split
  · exact iff_of_true rfl (.inl rfl)
  · rename_i rows
    obtain ⟨iccids, hiccids⟩ := simIccids_total (w := w) h
    have hmem : iccid ∈ iccids
        ↔ ∃ sim ∈ rows, sim.isDict = true ∧ stripped w sim "iccid" = .ok iccid :=
      (simIccids_mem hiccids).trans (and_iff_right hne)
    rw [bind_ok_iff, hiccids]
    constructor
    · rintro ⟨_, -, hrequire⟩
      exact .inr ⟨rows, rfl, hmem.1 (of_decide_eq_true (require_ok.1 hrequire))⟩
    · rintro (hc | ⟨rows', heq, hsim⟩)
      · cases hc
      cases heq
      refine ⟨(), require_ok.2 ?_, require_ok.2 (decide_eq_true (hmem.2 hsim))⟩
      obtain ⟨sim, hin, -⟩ := hsim
      cases rows with
      | nil => cases hin
      | cons _ _ => rfl
  · rename_i hnull hlist
    refine iff_of_false (fun hc => nomatch hc) ?_
    rintro (heq | ⟨rows, heq, -⟩)
    · exact hnull heq
    · exact hlist rows heq

section Device

variable {device : Json} (hwritable : device.Writable) (hdict : device.isDict = true)

include hwritable

theorem resolveTopLevelIccid_raises : RaisesOnly IsUemError (resolveTopLevelIccid w device) := by
  unfold resolveTopLevelIccid
  rw [raisesOnly_bind]
  refine ⟨raisesOnly_require trivial, fun _ _ => ?_⟩
  rw [raisesOnly_bind]
  constructor
  · obtain ⟨text, htext⟩ := stripped_total hwritable w "iccid"
    rw [htext]
    exact raisesOnly_ok
  · intro iccid _
    rw [raisesOnly_bind]
    refine ⟨raisesOnly_require trivial, fun _ _ => ?_⟩
    rw [raisesOnly_bind]
    exact ⟨checkSims_raises (hwritable.get "sims"), fun _ _ => raisesOnly_ok⟩

include hdict

theorem resolveTopLevelIccid_ok :
    resolveTopLevelIccid w device = .ok iccid ↔ HasIccid w device iccid := by
  unfold resolveTopLevelIccid HasIccid
  constructor
  · intro h
    obtain ⟨_, -, h⟩ := bind_ok h
    obtain ⟨text, htext, h⟩ := bind_ok h
    obtain ⟨_, hne, h⟩ := bind_ok h
    obtain ⟨_, hsims, h⟩ := bind_ok h
    cases h
    have hne := of_decide_eq_true (require_ok.1 hne)
    exact ⟨hne, htext, (checkSims_ok hne (hwritable.get "sims")).1 hsims⟩
  · rintro ⟨hne, htext, hsims⟩
    have hsims := (checkSims_ok (v := ()) hne (hwritable.get "sims")).2 hsims
    exact bind_ok_iff.2 ⟨(), require_ok.2 hdict, bind_ok_iff.2 ⟨iccid, htext, bind_ok_iff.2
      ⟨(), require_ok.2 (decide_eq_true hne), bind_ok_iff.2 ⟨(), hsims, rfl⟩⟩⟩⟩

end Device

theorem esimForIccid_raises :
    RaisesOnly IsUemError (esimForIccid esims iccid) ↔ isStorable iccid = true := by
  unfold esimForIccid
  by_cases hstorable : isStorable iccid = true
  · rw [if_neg (not_not.2 hstorable)]
    refine iff_of_true ?_ hstorable
    split
    · exact raisesOnly_error.2 trivial
    · exact raisesOnly_ok
    · exact raisesOnly_error.2 trivial
  · rw [if_pos hstorable]
    exact iff_of_false (fun hc => raisesOnly_error.1 hc) hstorable

theorem esimForIccid_ok (h : isStorable iccid = true) {esim : EsimRow} :
    esimForIccid esims iccid = .ok esim ↔ IsEsimOf esims iccid esim := by
  have hnodup : esims.rows.Nodup := by
    refine esims.apart.imp ?_
    rintro e f happart rfl
    exact happart rfl
  have hone : esims.rows.filter (fun e => e.iccid = iccid ∧ e.archivedAt = none) = [esim]
      ↔ IsEsimOf esims iccid esim :=
    isOnly_iff hnodup fun e _ => decide_eq_true_iff
  unfold esimForIccid
  rw [if_neg (not_not.2 h), ← hone]
  split
  · rename_i hnone
    rw [hnone]
    exact iff_of_false (fun hc => nomatch hc) fun hc => nomatch hc
  · rename_i e he
    rw [he, Except.ok.injEq, List.singleton_inj]
  · rename_i hmany
    exact iff_of_false (fun hc => nomatch hc) (hmany esim)

/-! ## All of it -/

theorem translates : Translates fun e => IsUemError (asUnavailable (asSerialMatch e)) where
  client message := by
    unfold asSerialMatch
    dsimp only
    split
    · trivial
    · split
      · trivial
      · trivial
  transport := id
  value := id
  type := id
  overflow := id

theorem resolve_eq (h : Asked u serial) : (resolveEsimBySerial u esims cache serial).1
    = (((getDeviceBySerial u cache (PyText.strip serial)).1.mapError asSerialMatch).mapError
      asUnavailable >>=
      fun device => resolveTopLevelIccid u.writer device >>= esimForIccid esims) := by
  unfold resolveEsimBySerial resolveUemDeviceBySerial
  dsimp only
  rw [if_neg h.1, PyText.strip_strip, if_neg h.1, if_neg (not_not.2 h.2.1)]

/-- A serial that is not looked up is refused. -/
theorem resolve_notAsked (h : ¬ Asked u serial) :
    ∃ e, (resolveEsimBySerial u esims cache serial).1 = .error e ∧ IsUemError e := by
  unfold resolveEsimBySerial resolveUemDeviceBySerial
  dsimp only
  by_cases hblank : PyText.strip serial = ""
  · rw [if_pos hblank]
    exact ⟨_, rfl, trivial⟩
  · rw [if_neg hblank, PyText.strip_strip, if_neg hblank]
    by_cases henabled : u.settings.enabled = true
    · rw [if_neg (not_not.2 henabled)]
      unfold getDeviceBySerial listDevices
      rw [PyText.strip_strip, if_neg hblank]
      -- the client is not configured
      have hmissing : u.settings.client.missing ≠ [] := fun hc => h ⟨hblank, henabled, hc⟩
      obtain ⟨message, hready⟩ :
          ∃ message, ensureReady u.settings = .error (.blackberryUemClient message) := by
        unfold ensureReady
        rw [if_neg (not_not.2 henabled), if_pos hmissing]
        exact ⟨_, rfl⟩
      rw [hready]
      exact ⟨asUnavailable (asSerialMatch (.blackberryUemClient message)), rfl,
        translates.client message⟩
    · rw [if_pos henabled]
      exact ⟨_, rfl, trivial⟩

/-- The device that is found can be read. -/
theorem found_readable {device : Json} (hlisted : Listed u cache serial devices)
    (hsole : IsSole devices (HasSerial u serial) device) :
    device.Writable ∧ device.isDict = true := by
  obtain ⟨before, after, hdevices, -⟩ := hsole
  have hmem : device ∈ devices := by
    rw [hdevices]
    exact List.mem_append_right _ List.mem_cons_self
  refine ⟨listed_writable hlisted hmem, ?_⟩
  obtain ⟨-, -, payload, rows, -, -, hrows⟩ := hlisted
  rw [hrows] at hmem
  exact (List.mem_filter.1 hmem).2

section Asked

variable (h : Asked u serial)

include h

theorem resolve_raises : RaisesOnly IsUemError (resolveEsimBySerial u esims cache serial).1
    ↔ Clean u cache serial := by
  rw [resolve_eq h, raisesOnly_bind, raisesOnly_mapError, raisesOnly_mapError,
    getDeviceBySerial_raises translates h]
  have hdevice : ∀ device, device.Writable → device.isDict = true →
      (RaisesOnly IsUemError (resolveTopLevelIccid u.writer device >>= esimForIccid esims)
        ↔ ∀ iccid, HasIccid u.writer device iccid → isStorable iccid = true) := by
    intro device hwritable hdict
    rw [raisesOnly_bind, and_iff_right (resolveTopLevelIccid_raises hwritable)]
    refine forall_congr' fun iccid => ?_
    rw [resolveTopLevelIccid_ok hwritable hdict, esimForIccid_raises]
  constructor
  · rintro ⟨hc, hrest⟩
    refine ⟨hc, fun devices device iccid hlisted hsole hiccid => ?_⟩
    obtain ⟨hwritable, hdict⟩ := found_readable hlisted hsole
    have hfound := (getDeviceBySerial_ok h hc).2 ⟨devices, hlisted, hsole⟩
    exact (hdevice device hwritable hdict).1
      (hrest device (mapError_ok.2 (mapError_ok.2 hfound))) iccid hiccid
  · intro hclean
    refine ⟨hclean.toConnects, fun device hfound => ?_⟩
    obtain ⟨devices, hlisted, hsole⟩ :=
      (getDeviceBySerial_ok h hclean.toConnects).1 (mapError_ok.1 (mapError_ok.1 hfound))
    obtain ⟨hwritable, hdict⟩ := found_readable hlisted hsole
    exact (hdevice device hwritable hdict).2 fun iccid =>
      hclean.iccid devices device iccid hlisted hsole

theorem resolve_ok (hclean : Clean u cache serial) {esim : EsimRow} :
    (resolveEsimBySerial u esims cache serial).1 = .ok esim
      ↔ LeadsTo u esims cache serial esim := by
  rw [resolve_eq h]
  constructor
  · intro hok
    obtain ⟨device, hfound, hok⟩ := bind_ok hok
    obtain ⟨iccid, hiccid, hok⟩ := bind_ok hok
    obtain ⟨devices, hlisted, hsole⟩ :=
      (getDeviceBySerial_ok h hclean.toConnects).1 (mapError_ok.1 (mapError_ok.1 hfound))
    obtain ⟨hwritable, hdict⟩ := found_readable hlisted hsole
    have hiccid := (resolveTopLevelIccid_ok hwritable hdict).1 hiccid
    have hstorable := hclean.iccid devices device iccid hlisted hsole hiccid
    exact ⟨devices, device, iccid, hlisted, hsole, hiccid, (esimForIccid_ok hstorable).1 hok⟩
  · rintro ⟨devices, device, iccid, hlisted, hsole, hiccid, hesim⟩
    obtain ⟨hwritable, hdict⟩ := found_readable hlisted hsole
    have hfound := (getDeviceBySerial_ok h hclean.toConnects).2 ⟨devices, hlisted, hsole⟩
    have hstorable := hclean.iccid devices device iccid hlisted hsole hiccid
    exact bind_ok_iff.2 ⟨device, mapError_ok.2 (mapError_ok.2 hfound), bind_ok_iff.2
      ⟨iccid, (resolveTopLevelIccid_ok hwritable hdict).2 hiccid,
        (esimForIccid_ok hstorable).2 hesim⟩⟩

end Asked

/--
**A serial leads to its eSIM or to one of the five errors, exactly when nothing is answered that
Python raises an error of its own for.**
-/
theorem resolves_iff (u : UemCall) (esims : Table EsimRow) (cache : TokenCache) (serial : String) :
    ResolvesWell u esims cache serial ↔ (Asked u serial → Clean u cache serial) := by
  by_cases hasked : Asked u serial
  · constructor
    · intro h _
      exact (resolve_raises hasked).1 h.raised
    · intro h
      exact ⟨fun esim => resolve_ok hasked (h hasked), (resolve_raises hasked).2 (h hasked)⟩
  · refine iff_of_true ?_ fun h => absurd h hasked
    obtain ⟨e, herror, hfive⟩ := @resolve_notAsked u cache esims serial hasked
    refine ⟨fun esim => ?_, ?_⟩
    · rw [herror]
      refine iff_of_false (fun hc => nomatch hc) ?_
      rintro ⟨devices, device, iccid, hlisted, -⟩
      exact hasked hlisted.1
    · rw [herror]
      exact raisesOnly_error.2 hfive

/-! ## An answer that is no JSON -/

/-- Python's reader on what is answered here. -/
def pageReader : JsonReader := ⟨fun _ => none, fun _ _ h => nomatch h⟩

/-- A client that has a token, asked behind a proxy that answers with a page of its own. -/
def pageCall : UemCall where
  writer := ⟨fun _ => "", fun _ => "", fun _ => ""⟩
  reader := pageReader
  settings := ⟨true, "S1", "uem.example", "id", "secret", ""⟩
  now := 0
  tokenAnswer := .urlError "refused"
  devicesAnswer := .reply 200 "<html></html>".toUTF8

/-- The page is no JSON, and that is what the caller is told. -/
theorem resolve_page : (resolveEsimBySerial pageCall .empty ⟨.str "token", 1⟩ "SN1").1
    = .error .valueError
    ∧ ¬ ResolvesWell pageCall .empty ⟨.str "token", 1⟩ "SN1" := by
  have herror : (resolveEsimBySerial pageCall .empty ⟨.str "token", 1⟩ "SN1").1
      = .error .valueError := by
    decide
  exact ⟨herror, fun h => h.raised _ herror⟩

end Roamkit.Organizations.Proof
