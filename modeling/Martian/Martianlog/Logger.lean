import Martian.Error

/-!
# The logging modifier

`martianlog.Logger` is a request and response modifier that hands one entry per message to its
log function. An entry is a URL block between two rules, the message as `messageview` renders
it (the headers, and the body in `BodyLogMode`), and a closing rule. The deferred `logEnd` and
`l.log(b.String())` run on every return after the buffer is made, so an entry is logged also
when rendering fails; the error is returned.

`messageview` is not under `src/`: a `View` gives, for each message, what its reader yields
after `SkipBody(skip)` and with the `Decode()` option, or the error of the snapshot or of
`Reader`. The buffer is the list of writes it received; an entry is their concatenation.

* `modify_omits_bodies`: outside `BodyLogMode`, the entries and the errors depend on the
  messages only through their renderings without the body;
* `modify_invalid_mode`: a mode other than the four `LoggerMode` constants logs as
  `HeaderLogMode` does;
* `modifyResponse_errOnly`: in `ErrOnlyLogMode` a response is logged only with a status of 400
  or more, and its entry begins with the entry `HeaderLogMode` logs for its request.
-/

namespace Martian
namespace Martianlog

/-! ## Modes and loggers -/

/-- `UrlLogMode`. -/
def urlLogMode : String := "url"
/-- `HeaderLogMode`. -/
def headerLogMode : String := "header"
/-- `BodyLogMode`. -/
def bodyLogMode : String := "body"
/-- `ErrOnlyLogMode`. -/
def errOnlyLogMode : String := "error"

@[simp] theorem headerLogMode_ne_urlLogMode : headerLogMode ≠ urlLogMode := by decide
@[simp] theorem headerLogMode_ne_bodyLogMode : headerLogMode ≠ bodyLogMode := by decide
@[simp] theorem headerLogMode_ne_errOnlyLogMode : headerLogMode ≠ errOnlyLogMode := by decide
@[simp] theorem errOnlyLogMode_ne_urlLogMode : errOnlyLogMode ≠ urlLogMode := by decide
@[simp] theorem errOnlyLogMode_ne_bodyLogMode : errOnlyLogMode ≠ bodyLogMode := by decide

/-- `LoggerMode.IsValid`. -/
def isValid (m : String) : Bool :=
  m == urlLogMode || m == headerLogMode || m == bodyLogMode || m == errOnlyLogMode

/-- `martianlog.Logger`, by its mode and decode flag. Its log function receives the entries,
which `Outcome` collects. -/
structure Logger where
  mode : String
  decode : Bool
  deriving DecidableEq, Repr

/-- `NewLogger()`: `HeaderLogMode`, logging through `log.Infof`. -/
def newLogger : Logger := ⟨headerLogMode, false⟩

/-- `l.SetMode(mode)`. -/
def Logger.setMode (l : Logger) (mode : String) : Logger := { l with mode := mode }

/-- `l.SetHeadersOnly(headersOnly)`. -/
def Logger.setHeadersOnly (l : Logger) (headersOnly : Bool) : Logger :=
  { l with mode := if headersOnly then headerLogMode else bodyLogMode }

/-- `l.SetDecode(decode)`. -/
def Logger.setDecode (l : Logger) (decode : Bool) : Logger := { l with decode := decode }

/-- `loggerFromJSON`, after `json.Unmarshal`: a new logger with `headersOnly` and `decode`
set. -/
def loggerFromJSON (headersOnly decode : Bool) : Logger :=
  (newLogger.setHeadersOnly headersOnly).setDecode decode

/-! ## Messages and their entries -/

/-- An `*http.Request`, by what the logger reads: its URL, and from its `martian` context
whether logging is skipped and the duration of the round trip. -/
structure Request where
  url : String
  skippingLogging : Bool
  roundTripDuration : Option String
  deriving DecidableEq, Repr

/-- An `*http.Response`, by what the logger reads. -/
structure Response where
  statusCode : Nat
  status : String
  request : Request
  deriving DecidableEq, Repr

/-- What `messageview` renders for a message after `SkipBody(skip)`, decoding when `decode`:
the text its reader yields, or the error of the snapshot or of `Reader`. -/
structure View where
  request : Request → Bool → Bool → Except Error String
  response : Response → Bool → Bool → Except Error String

/-- What a modifier call did: the entries it handed to the log function, and its error. -/
structure Outcome where
  logged : List String
  err : Option Error

/-- `strings.Repeat("-", 80)`. -/
def rule : String := ⟨List.replicate 80 '-'⟩

/-- What `logUrl` writes: `fmt.Fprintln` of `""`, of the rule, of the URL line and of the
rule. -/
def urlBlock (url : String) : List String := ["\n", rule ++ "\n", url ++ "\n", rule ++ "\n"]

/-- What `logEnd` writes. -/
def endBlock : List String := ["\n", rule ++ "\n"]

/-- `l.logUrl(b, url)`. -/
def logUrl (b : List String) (url : String) : List String := b ++ urlBlock url

/-- `l.logEnd(b)`. -/
def logEnd (b : List String) : List String := b ++ endBlock

/-- `l.logStatus(b, status)`. -/
def logStatus (b : List String) (status : String) : List String :=
  b ++ ["status: " ++ status ++ "\n"]

/-- `io.Copy(b, r)` of a rendered message, or the error of rendering it. -/
def copyInto (b : List String) : Except Error String → List String × Option Error
  | .ok text => (b ++ [text], none)
  | .error err => (b, some err)

/-- `l.logRequest(b, mv, req)`, after `mv.SkipBody(skip)`. -/
def Logger.logRequest (l : Logger) (v : View) (b : List String) (req : Request) (skip : Bool) :
    List String × Option Error :=
  copyInto b (v.request req skip l.decode)

/-- `l.logResponse(b, mv, res)`, after `mv.SkipBody(skip)`. -/
def Logger.logResponse (l : Logger) (v : View) (b : List String) (res : Response)
    (skip : Bool) : List String × Option Error :=
  copyInto b (v.response res skip l.decode)

/-- `l.ModifyRequest(req)`. -/
def Logger.modifyRequest (l : Logger) (v : View) (req : Request) : Outcome :=
  if req.skippingLogging then ⟨[], none⟩
  else if l.mode = errOnlyLogMode then ⟨[], none⟩
  else
    let b := logUrl [] ("Request to " ++ req.url)
    let (b, err) := if l.mode = urlLogMode then (b, none)
      else l.logRequest v b req (l.mode ≠ bodyLogMode)
    ⟨[String.join (logEnd b)], err⟩

/-- The URL line of a response's entry. -/
def responseUrl (res : Response) : String :=
  match res.request.roundTripDuration with
  | some d => "Response from " ++ res.request.url ++ ", round trip took " ++ d
  | none => "Response from " ++ res.request.url

/-- The writes of `ModifyResponse` after `mv.SkipBody(skip)`, up to its return, and its error:
in `ErrOnlyLogMode` with a status of 400 or more the request comes first, and an error logging
it returns at once. -/
def Logger.responseEntry (l : Logger) (v : View) (res : Response) (skip : Bool) :
    List String × Option Error :=
  let start : Except (List String × Error) (List String) :=
    if l.mode = errOnlyLogMode ∧ res.statusCode ≥ 400 then
      match l.logRequest v (logUrl [] ("Request to " ++ res.request.url)) res.request skip with
      | (b, some err) => .error (b, err)
      | (b, none) => .ok (logEnd b)
    else .ok []
  match start with
  | .error (b, err) => (b, some err)
  | .ok b =>
    let b := logUrl b (responseUrl res)
    if l.mode = urlLogMode then (logStatus b res.status, none)
    else l.logResponse v b res skip

/-- `l.ModifyResponse(res)`. -/
def Logger.modifyResponse (l : Logger) (v : View) (res : Response) : Outcome :=
  if res.request.skippingLogging then ⟨[], none⟩
  else if l.mode = errOnlyLogMode ∧ res.statusCode < 400 then ⟨[], none⟩
  else
    let (b, err) := l.responseEntry v res (l.mode ≠ bodyLogMode)
    ⟨[String.join (logEnd b)], err⟩

theorem join_append (a b : List String) :
    String.join (a ++ b) = String.join a ++ String.join b := by
  have h (x : String) (b : List String) :
      b.foldl (· ++ ·) x = x ++ b.foldl (· ++ ·) "" := by
    induction b generalizing x with
    | nil => simp
    | cons s b ih => rw [List.foldl_cons, List.foldl_cons, ih, ih ("" ++ s), String.empty_append,
        String.append_assoc]
  simp only [String.join, List.foldl_append]
  exact h _ _

theorem copyInto_fst (b : List String) (r : Except Error String) :
    ∃ more, (copyInto b r).1 = b ++ more := by
  cases r <;> simp [copyInto]

/-! ## Bodies stay out of the log -/

/-- Two views that render every message alike when its body is skipped. -/
def View.agreeWithoutBodies (v v' : View) : Prop :=
  (∀ req decode, v.request req true decode = v'.request req true decode) ∧
    ∀ res decode, v.response res true decode = v'.response res true decode

/-- Outside `BodyLogMode` the logger renders every message with `SkipBody(true)`: its entries
and errors depend on the messages only through their renderings without the body. -/
theorem modify_omits_bodies (l : Logger) (hm : l.mode ≠ bodyLogMode) {v v' : View}
    (hv : v.agreeWithoutBodies v') :
    (∀ req, l.modifyRequest v req = l.modifyRequest v' req) ∧
      ∀ res, l.modifyResponse v res = l.modifyResponse v' res := by
  have hskip : decide (l.mode ≠ bodyLogMode) = true := decide_eq_true hm
  refine ⟨fun req => ?_, fun res => ?_⟩
  · simp only [Logger.modifyRequest, Logger.logRequest, hskip, hv.1]
  · simp only [Logger.modifyResponse, Logger.responseEntry, Logger.logRequest,
      Logger.logResponse, hskip, hv.1, hv.2]

/-- A view that shows `body` unless the body is skipped. -/
def View.showing (body : String) : View where
  request _ skip _ :=
    .ok (if skip then "GET / HTTP/1.1\r\n\r\n" else "GET / HTTP/1.1\r\n\r\n" ++ body)
  response _ skip _ :=
    .ok (if skip then "HTTP/1.1 500\r\n\r\n" else "HTTP/1.1 500\r\n\r\n" ++ body)

theorem modify_omits_bodies_newLogger :
    newLogger.mode ≠ bodyLogMode ∧ (View.showing "secret").agreeWithoutBodies (View.showing "") ∧
      ((∀ req, newLogger.modifyRequest (View.showing "secret") req =
          newLogger.modifyRequest (View.showing "") req) ∧
        ∀ res, newLogger.modifyResponse (View.showing "secret") res =
          newLogger.modifyResponse (View.showing "") res) :=
  have hv : (View.showing "secret").agreeWithoutBodies (View.showing "") :=
    ⟨fun _ _ => rfl, fun _ _ => rfl⟩
  ⟨by decide, hv, modify_omits_bodies newLogger (by decide) hv⟩

/-! ## Invalid modes -/

/-- A mode that `IsValid` rejects is none of the four constants. -/
theorem ne_of_isValid_eq_false {m : String} (h : isValid m = false) :
    m ≠ urlLogMode ∧ m ≠ headerLogMode ∧ m ≠ bodyLogMode ∧ m ≠ errOnlyLogMode := by
  simpa [isValid, and_assoc] using h

/-- Every check of `ModifyRequest` and `ModifyResponse` compares the mode with `UrlLogMode`,
`BodyLogMode` or `ErrOnlyLogMode`, so a mode that is none of the four logs as `HeaderLogMode`
does. -/
theorem modify_invalid_mode (l : Logger) (h : isValid l.mode = false) (v : View) :
    (∀ req, l.modifyRequest v req = (l.setMode headerLogMode).modifyRequest v req) ∧
      ∀ res, l.modifyResponse v res = (l.setMode headerLogMode).modifyResponse v res := by
  obtain ⟨hu, -, hb, he⟩ := ne_of_isValid_eq_false h
  refine ⟨fun req => ?_, fun res => ?_⟩
  · simp [Logger.modifyRequest, Logger.setMode, Logger.logRequest, hu, hb, he]
  · simp [Logger.modifyResponse, Logger.responseEntry, Logger.setMode, Logger.logRequest,
      Logger.logResponse, hu, hb, he]

theorem modify_invalid_mode_verbose :
    isValid (newLogger.setMode "verbose").mode = false ∧
      ((∀ req, (newLogger.setMode "verbose").modifyRequest (View.showing "") req =
          ((newLogger.setMode "verbose").setMode headerLogMode).modifyRequest (View.showing "")
            req) ∧
        ∀ res, (newLogger.setMode "verbose").modifyResponse (View.showing "") res =
          ((newLogger.setMode "verbose").setMode headerLogMode).modifyResponse (View.showing "")
            res) :=
  ⟨by decide, modify_invalid_mode _ (by decide) _⟩

/-! ## Error-only mode -/

section
variable (l : Logger) (v : View)

theorem modifyRequest_header_logged {req : Request} (hs : req.skippingLogging = false) :
    ((l.setMode headerLogMode).modifyRequest v req).logged =
      [String.join (logEnd (copyInto (logUrl [] ("Request to " ++ req.url))
        (v.request req true l.decode)).1)] := by
  simp [Logger.modifyRequest, Logger.setMode, Logger.logRequest, hs]

/-- In `ErrOnlyLogMode`, for a status of 400 or more, `ModifyResponse` first writes what
`ModifyRequest` writes in `HeaderLogMode`; it stops there if rendering the request fails. -/
theorem responseEntry_errOnly (res : Response) (hm : l.mode = errOnlyLogMode)
    (hge : 400 ≤ res.statusCode) :
    (l.responseEntry v res true).1 = (copyInto (logUrl [] ("Request to " ++ res.request.url))
        (v.request res.request true l.decode)).1 ∨
      ∃ rest, (l.responseEntry v res true).1 = logEnd (copyInto
        (logUrl [] ("Request to " ++ res.request.url)) (v.request res.request true l.decode)).1 ++
          rest := by
  cases hr : v.request res.request true l.decode with
  | error err => simp [Logger.responseEntry, Logger.logRequest, copyInto, hr, hm, hge]
  | ok text =>
    right
    have he : l.responseEntry v res true = l.logResponse v
        (logUrl (logEnd (logUrl [] ("Request to " ++ res.request.url) ++ [text])) (responseUrl res))
        res true := by
      simp [Logger.responseEntry, Logger.logRequest, copyInto, hr, hm, hge]
    obtain ⟨more, hmore⟩ := copyInto_fst _ (v.response res true l.decode)
    rw [he, Logger.logResponse, hmore]
    exact ⟨urlBlock (responseUrl res) ++ more, by simp [logUrl, copyInto]⟩

/-- In `ErrOnlyLogMode` a response is logged, in one entry, only with a status of 400 or more,
and that entry begins with the entry `HeaderLogMode` logs for its request. -/
theorem modifyResponse_errOnly (hm : l.mode = errOnlyLogMode) (res : Response)
    (hs : res.request.skippingLogging = false) :
    (l.modifyResponse v res).logged.length = (if res.statusCode < 400 then 0 else 1) ∧
      ∀ entry ∈ (l.modifyResponse v res).logged,
        ∃ head ∈ ((l.setMode headerLogMode).modifyRequest v res.request).logged,
          ∃ rest, entry = head ++ rest := by
  by_cases hlt : res.statusCode < 400
  · simp [Logger.modifyResponse, hs, hm, hlt]
  have hlog : (l.modifyResponse v res).logged =
      [String.join (logEnd (l.responseEntry v res true).1)] := by
    simp [Logger.modifyResponse, hs, hm, hlt]
  refine ⟨by simp [hlog, hlt], ?_⟩
  rw [hlog, modifyRequest_header_logged l v hs]
  intro entry hentry
  rw [List.mem_singleton] at hentry
  subst hentry
  refine ⟨_, List.mem_singleton_self _, ?_⟩
  rcases responseEntry_errOnly l v res hm (by omega) with h | ⟨rest, h⟩
  · exact ⟨"", by rw [h, String.append_empty]⟩
  · exact ⟨String.join (rest ++ endBlock), by rw [h]; simp only [logEnd, join_append,
      List.append_assoc, String.append_assoc]⟩

end

/-- A failed response to a request for `http://example.com/`. -/
def Response.serverError : Response :=
  ⟨500, "500 Internal Server Error", ⟨"http://example.com/", false, none⟩⟩

theorem modifyResponse_errOnly_serverError :
    (newLogger.setMode errOnlyLogMode).mode = errOnlyLogMode ∧
      Response.serverError.request.skippingLogging = false ∧
      ((((newLogger.setMode errOnlyLogMode).modifyResponse (View.showing "")
          Response.serverError).logged.length =
            if Response.serverError.statusCode < 400 then 0 else 1) ∧
        ∀ entry ∈ ((newLogger.setMode errOnlyLogMode).modifyResponse (View.showing "")
            Response.serverError).logged,
          ∃ head ∈ (((newLogger.setMode errOnlyLogMode).setMode headerLogMode).modifyRequest
              (View.showing "") Response.serverError.request).logged,
            ∃ rest, entry = head ++ rest) :=
  ⟨rfl, rfl, modifyResponse_errOnly _ _ rfl _ rfl⟩

end Martianlog
end Martian
