import Martian.Proxy.Basic

/-!
# The upstream of a `CONNECT`

`p.connect(req)` of `proxy.go` opens the upstream of a `CONNECT` tunnel. It dials the target
directly through `p.dial` when no upstream proxy is set or `p.proxyURL` gives none. Otherwise it
goes through the upstream proxy by the scheme of its URL: HTTP or HTTPS with `connectHTTP`, SOCKS5
with `connectSOCKS5`. It returns Go's three values, a response, the upstream connection and an
error, each of which may be `nil`.

What `connect` calls outside itself (`p.proxyURL`, `p.dial`, and the `dialvia` dialers, which are
not among the sources) is a parameter, `Dialers`, so that a theorem over every `Dialers` is a
theorem over every upstream. `handleConnectRequest` goes on with the error when there is one and
with the response otherwise (`connectAnswer`): that answer is what the engine of
`Martian.Proxy.Handle` asks its world for. It then opens the tunnel over the connection when the
status is `200`.

`Answers` is what `handleConnectRequest` needs of the three values: a response or an error, since
it defers `res.Body.Close()`, and a connection with a `2xx`, since the tunnel copies to and from
it. `connect_answers` says that `connect` keeps this whenever the `dialvia` dialer it goes
through does, and that the client never gets an upstream proxy's `2xx` itself (`Bare`).

Not modelled: `req.Context()`, `res.Body.Close()` on the proxy's `2xx`, and `res.Request = req`,
which no modelled field reads.
-/

namespace Martian

/-- A `*url.URL`, by the fields `connect` reads. -/
structure URL where
  scheme : String
  host : String
  deriving DecidableEq, Repr

/-- What `connect` calls outside itself for one request, with upstream connections of type `C`. -/
structure Dialers (C : Type) where
  /-- `p.proxyURL(req)`; `none` when `p.proxyURL` is nil. -/
  proxyURL : Option (Except Error (Option URL))
  /-- `p.dial(ctx, "tcp", host)`. -/
  dial : String → Except Error C
  /-- `DialContextR(ctx, "tcp", host)` of `dialvia.HTTPSProxy(p.dial, u, p.clientTLSConfig())`
  when the flag is set, of `dialvia.HTTPProxy(p.dial, u)` otherwise: the proxy's response, the
  connection and the error. -/
  dialHTTP : Bool → URL → String → Option Response × Option C × Option Error
  /-- `DialContext(ctx, "tcp", host)` of `dialvia.SOCKS5Proxy(p.dial, u)`. -/
  dialSOCKS5 : URL → String → Except Error C

variable {C : Type}

/-- `p.connectHTTP(req, proxyURL)`, for `req.URL.Host = host`: a `2xx` of the upstream proxy
becomes a fresh `200`, with the connection and no error; any other answer is handed on. -/
def connectHTTP (d : Dialers C) (req : Request) (host : String) (proxyURL : URL) :
    Option Response × Option C × Option Error :=
  match d.dialHTTP (proxyURL.scheme == "https") proxyURL host with
  | (some res, conn, err) =>
    if res.statusCode / 100 = 2 then (some (newResponse 200 req), conn, none)
    else (some res, conn, err)
  | (none, conn, err) => (none, conn, err)

/-- `p.connectSOCKS5(req, proxyURL)`, for `req.URL.Host = host`. -/
def connectSOCKS5 (d : Dialers C) (req : Request) (host : String) (proxyURL : URL) :
    Option Response × Option C × Option Error :=
  match d.dialSOCKS5 proxyURL host with
  | .error err => (none, none, some err)
  | .ok conn => (some (newResponse 200 req), some conn, none)

/-- `fmt.Errorf("martian: unsupported proxy scheme: %s", scheme)`. -/
def unsupportedScheme (scheme : String) : Error :=
  .other ("martian: unsupported proxy scheme: " ++ scheme)

/-- `p.connect(req)`, for `req.URL.Host = host`. -/
def connect (d : Dialers C) (req : Request) (host : String) :
    Option Response × Option C × Option Error :=
  match d.proxyURL with
  | some (.error err) => (none, none, some err)
  | some (.ok (some proxyURL)) =>
    match proxyURL.scheme with
    | "http" | "https" => connectHTTP d req host proxyURL
    | "socks5" => connectSOCKS5 d req host proxyURL
    | scheme => (none, none, some (unsupportedScheme scheme))
  | _ =>
    match d.dial host with
    | .error err => (none, none, some err)
    | .ok conn => (some (newResponse 200 req), some conn, none)

/-- What `handleConnectRequest` goes on with after `p.connect`: the error when there is one
(`p.errorResponse` then replaces the response), the response otherwise; `none` when there is
neither, where `defer res.Body.Close()` dereferences a nil response. -/
def connectAnswer : Option Response × Option C × Option Error → Option (Except Error Response)
  | (_, _, some err) => some (.error err)
  | (some res, _, none) => some (.ok res)
  | (none, _, none) => none

/-- What `handleConnectRequest` needs of the three values of a dialer: a response or an error,
and a connection with a `2xx` response. -/
def Answers (x : Option Response × Option C × Option Error) : Prop :=
  (x.1.isSome ∨ x.2.2.isSome) ∧ ∀ res ∈ x.1, res.statusCode / 100 = 2 → x.2.1.isSome

/-- The responses among the three values are the bare `200` of `proxyutil.NewResponse`, or no
`2xx`. -/
def Bare (req : Request) (x : Option Response × Option C × Option Error) : Prop :=
  ∀ res ∈ x.1, res = newResponse 200 req ∨ res.statusCode / 100 ≠ 2

/-- With a response or an error, `handleConnectRequest` has something to go on with. -/
theorem Answers.answer_isSome {x : Option Response × Option C × Option Error} (hx : Answers x) :
    (connectAnswer x).isSome := by
  obtain ⟨res, conn, err⟩ := x
  rcases hx.1 with h | h <;> cases res <;> cases err <;> simp_all [connectAnswer]

/-- A `200` that `handleConnectRequest` goes on with comes with a connection. -/
theorem Answers.tunnel {x : Option Response × Option C × Option Error} (hx : Answers x)
    {res : Response} (hres : connectAnswer x = some (.ok res)) (h200 : res.statusCode = 200) :
    x.2.1.isSome := by
  obtain ⟨_ | r, conn, _ | err⟩ := x <;> simp only [connectAnswer, reduceCtorEq, Option.some.injEq,
    Except.ok.injEq] at hres
  subst hres
  exact hx.2 r rfl (by rw [h200])

theorem answers_error (req : Request) (err : Error) :
    Answers ((none, none, some err) : Option Response × Option C × Option Error) ∧
      Bare req ((none, none, some err) : Option Response × Option C × Option Error) :=
  ⟨⟨.inr rfl, nofun⟩, nofun⟩

theorem answers_established (req : Request) (conn : C) :
    Answers (some (newResponse 200 req), some conn, none) ∧
      Bare req (some (newResponse 200 req), some conn, none) :=
  ⟨⟨.inl rfl, fun _ _ _ => rfl⟩, fun _ h => .inl (Option.some.inj h).symm⟩

theorem connectHTTP_answers (d : Dialers C) (req : Request) (host : String) (u : URL)
    (hvia : Answers (d.dialHTTP (u.scheme == "https") u host)) :
    Answers (connectHTTP d req host u) ∧ Bare req (connectHTTP d req host u) := by
  unfold connectHTTP
  split
  · rename_i res conn err he
    rw [he] at hvia
    split
    · -- the proxy's `2xx`, replaced
      exact ⟨⟨.inl rfl, fun _ _ _ => hvia.2 res rfl ‹_›⟩, fun _ h => .inl (Option.some.inj h).symm⟩
    · -- any other response, handed on
      exact ⟨⟨.inl rfl, fun _ h h2 => absurd (Option.some.inj h ▸ h2) ‹_›⟩,
        fun _ h => .inr (Option.some.inj h ▸ ‹_›)⟩
  · rename_i conn err he
    rw [he] at hvia
    exact ⟨⟨hvia.1, nofun⟩, nofun⟩

theorem connect_sound (d : Dialers C) (req : Request) (host : String)
    (hvia : ∀ tls u h, Answers (d.dialHTTP tls u h)) :
    Answers (connect d req host) ∧ Bare req (connect d req host) := by
  unfold connect
  split
  · exact answers_error req _
  · split
    · exact connectHTTP_answers d req host _ (hvia _ _ _)
    · exact connectHTTP_answers d req host _ (hvia _ _ _)
    · unfold connectSOCKS5
      split
      · exact answers_error req _
      · exact answers_established req _
    · exact answers_error req _
  · split
    · exact answers_error req _
    · exact answers_established req _

/-- `connect` leaves `handleConnectRequest` with a response or an error, and with a connection
whenever it goes on with a `200` and opens the tunnel, as long as the `dialvia` dialer it goes
through does. The client never gets an upstream proxy's `2xx` itself: every response `connect`
returns is the bare `200`, or no `2xx`. -/
theorem connect_answers (d : Dialers C) (req : Request) (host : String)
    (hvia : ∀ tls u h, Answers (d.dialHTTP tls u h)) :
    (connectAnswer (connect d req host)).isSome ∧
      (∀ res, connectAnswer (connect d req host) = some (.ok res) → res.statusCode = 200 →
        (connect d req host).2.1.isSome) ∧
      Bare req (connect d req host) :=
  have h := connect_sound d req host hvia
  ⟨h.1.answer_isSome, fun _ hres h200 => h.1.tunnel hres h200, h.2⟩

/-- An HTTPS upstream proxy that answers `204 No Content` over the connection `1`. -/
def viaHTTPS : Dialers Nat :=
  ⟨some (.ok (some ⟨"https", "proxy:3128"⟩)), fun _ => .ok 0,
    fun _ _ _ => (some ⟨204, false, "", false, []⟩, some 1, none), fun _ _ => .error .eof⟩

/-- The client gets the bare `200`, and the tunnel the proxy's connection. -/
theorem connect_answers_viaHTTPS :
    let req : Request := ⟨"CONNECT", 1, 1, false, "", "", false, []⟩
    (∀ tls u h, Answers (viaHTTPS.dialHTTP tls u h)) ∧
      connect viaHTTPS req "example.com:443" = (some (newResponse 200 req), some 1, none) ∧
      (connectAnswer (connect viaHTTPS req "example.com:443")).isSome ∧
      (∀ res, connectAnswer (connect viaHTTPS req "example.com:443") = some (.ok res) →
        res.statusCode = 200 → (connect viaHTTPS req "example.com:443").2.1.isSome) ∧
      Bare req (connect viaHTTPS req "example.com:443") :=
  have hvia : ∀ tls u h, Answers (viaHTTPS.dialHTTP tls u h) := fun _ _ _ =>
    ⟨.inl rfl, fun _ _ _ => rfl⟩
  ⟨hvia, rfl, connect_answers viaHTTPS _ "example.com:443" hvia⟩

end Martian
