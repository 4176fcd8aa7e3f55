import Martian.Proxy.Connect

/-!
# What the setters of a proxy leave

`NewProxy` of `proxy.go` builds a proxy around an `*http.Transport` of its own, and the setters
`SetRoundTripper`, `SetUpstreamProxy`, `SetUpstreamProxyFunc`, `SetDialContext`, `SetMITM`,
`SetRequestModifier` and `SetResponseModifier` change it. The upstream proxy and the dialer are
kept twice: in `p.proxyURL` and `p.dial`, which `connect` reads for a `CONNECT`, and in the
transport's `Proxy` and `DialContext`, which `p.roundTripper.RoundTrip` uses for every other
request. `SetRoundTripper` copies the proxy's two into the transport it is given; the other
setters copy theirs into whatever transport is installed at that time.

`Config` is the part of `*Proxy` these write, and `Config.apply` the step of the setters.
`Settings` says what the setters are for: each setting is the last value given to its setter.
`Settings.config` is the proxy such settings describe, and `config_apply` says that one setter
is one step of both. So any sequence of setters after `NewProxy` leaves the proxy its last
values describe, setters of different settings may come in either order, and a setter followed
by another of the same setting has no effect (`newProxy_run_order`). `transport_follows` says what the transport then holds: the proxy's
dialer and no HTTP/2, and the proxy's upstream exactly when a round tripper or an upstream was
ever set. Otherwise the transport of `NewProxy` asks the environment (`HTTP_PROXY` and the
like) while `p.proxyURL` is nil, so a `CONNECT` dials its host directly.

Functions, configs and round trippers of the caller are values of their own, known by an
identity; the code only compares them with nil and asks whether a round tripper is an
`*http.Transport`. The timeouts `NewProxy` gives its transport and its `net.Dialer`, which no
function of `proxy.go` reads, are left out, as are the exported options, which callers set
directly.
-/

namespace Martian

/-- A `func(*http.Request) (*url.URL, error)` that picks the upstream proxy of a request. -/
inductive ProxyFunc where
  /-- `http.ProxyFromEnvironment`. -/
  | fromEnvironment
  /-- `http.ProxyURL(u)`. -/
  | url (u : Option URL)
  /-- A caller's function, by its identity. -/
  | func (f : Nat)
  deriving DecidableEq, Repr

/-- A `func(context.Context, string, string) (net.Conn, error)` that dials a connection. -/
inductive DialFunc where
  /-- `(&net.Dialer{Timeout: 30 * time.Second, KeepAlive: 30 * time.Second}).DialContext`. -/
  | netDialer
  /-- A caller's function, by its identity. -/
  | func (d : Nat)
  /-- The closure `SetDialContext` builds: `dial`, then `nosigpipe.IgnoreSIGPIPE` on its
  connection. -/
  | ignoreSIGPIPE (dial : DialFunc)
  deriving DecidableEq, Repr

/-- An `*http.Transport`, by the fields `proxy.go` writes or reads. -/
structure Transport where
  /-- `TLSNextProto`: `none` for a nil map, the protocols it maps otherwise. A non-nil empty
  map keeps the transport from HTTP/2. -/
  tlsNextProto : Option (List String)
  proxy : Option ProxyFunc
  dialContext : Option DialFunc
  /-- `TLSClientConfig`, by its identity. -/
  tlsClientConfig : Option Nat
  deriving DecidableEq, Repr

/-- An `http.RoundTripper`: an `*http.Transport`, or any other, by its identity. -/
inductive RoundTripper where
  | transport (tr : Transport)
  | other (rt : Nat)
  deriving DecidableEq, Repr

/-- What `p.reqmod` or `p.resmod` holds, which is never nil: the package's `noop`, or a caller's
modifier by its identity. -/
inductive ModRef where
  | noop
  | caller (m : Nat)
  deriving DecidableEq, Repr

/-- The unexported fields of `*Proxy` that `NewProxy` and the setters write. -/
structure Config where
  roundTripper : RoundTripper
  /-- `p.dial`; nil only inside `NewProxy`, until it calls `SetDialContext`. -/
  dial : Option DialFunc
  /-- `p.mitm`, by its identity. -/
  mitm : Option Nat
  proxyURL : Option ProxyFunc
  reqmod : ModRef
  resmod : ModRef
  deriving DecidableEq, Repr

namespace Config

/-- `if tr, ok := p.roundTripper.(*http.Transport); ok { ... }`: `f` applied to the transport,
when the round tripper is one. -/
def withTransport (c : Config) (f : Transport → Transport) : Config :=
  match c.roundTripper with
  | .transport tr => { c with roundTripper := .transport (f tr) }
  | .other _ => c

/-- `p.SetRoundTripper(rt)`. -/
def setRoundTripper (c : Config) (rt : RoundTripper) : Config :=
  { c with roundTripper := rt }.withTransport fun tr =>
    { tr with tlsNextProto := some [], proxy := c.proxyURL, dialContext := c.dial }

/-- `p.SetUpstreamProxyFunc(f)`, with `none` for a nil `f`. -/
def setUpstreamProxyFunc (c : Config) (f : Option ProxyFunc) : Config :=
  { c with proxyURL := f }.withTransport fun tr => { tr with proxy := f }

/-- `p.SetUpstreamProxy(proxyURL)`. -/
def setUpstreamProxy (c : Config) (proxyURL : Option URL) : Config :=
  c.setUpstreamProxyFunc (some (.url proxyURL))

/-- `p.SetMITM(config)`. -/
def setMITM (c : Config) (config : Option Nat) : Config := { c with mitm := config }

/-- `p.SetDialContext(dial)`. -/
def setDialContext (c : Config) (dial : DialFunc) : Config :=
  let c := { c with dial := some (.ignoreSIGPIPE dial) }
  c.withTransport fun tr => { tr with dialContext := c.dial }

/-- `if reqmod == nil { reqmod = noop }` of `SetRequestModifier` and `SetResponseModifier`. -/
def orNoop : Option Nat → ModRef
  | none => .noop
  | some m => .caller m

/-- `p.SetRequestModifier(reqmod)`. -/
def setRequestModifier (c : Config) (reqmod : Option Nat) : Config :=
  { c with reqmod := orNoop reqmod }

/-- `p.SetResponseModifier(resmod)`. -/
def setResponseModifier (c : Config) (resmod : Option Nat) : Config :=
  { c with resmod := orNoop resmod }

/-- `p.clientTLSConfig()`: the transport's `TLSClientConfig`; `none` for the fresh
`&tls.Config{}`. A clone is the same config here. -/
def clientTLSConfig (c : Config) : Option Nat :=
  match c.roundTripper with
  | .transport tr => tr.tlsClientConfig
  | .other _ => none

end Config

/-- `NewProxy()`: its own transport, which asks the environment for an upstream proxy and does
not upgrade to HTTP/2, then `SetDialContext` with a `net.Dialer`. -/
def newProxy : Config :=
  Config.setDialContext
    ⟨.transport ⟨some [], some .fromEnvironment, none, none⟩, none, none, none, .noop, .noop⟩
    .netDialer

/-- A call of a setter, with its argument. -/
inductive Setter where
  | setRoundTripper (rt : RoundTripper)
  | setUpstreamProxy (proxyURL : Option URL)
  | setUpstreamProxyFunc (f : Option ProxyFunc)
  | setMITM (config : Option Nat)
  | setDialContext (dial : DialFunc)
  | setRequestModifier (reqmod : Option Nat)
  | setResponseModifier (resmod : Option Nat)
  deriving DecidableEq, Repr

/-- What a setter sets. `SetUpstreamProxy` and `SetUpstreamProxyFunc` set the same. -/
inductive Setting where
  | roundTripper | upstream | mitm | dial | reqmod | resmod
  deriving DecidableEq, Repr

def Setter.setting : Setter → Setting
  | .setRoundTripper _ => .roundTripper
  | .setUpstreamProxy _ | .setUpstreamProxyFunc _ => .upstream
  | .setMITM _ => .mitm
  | .setDialContext _ => .dial
  | .setRequestModifier _ => .reqmod
  | .setResponseModifier _ => .resmod

namespace Config

/-- One setter call. -/
def apply (c : Config) : Setter → Config
  | .setRoundTripper rt => c.setRoundTripper rt
  | .setUpstreamProxy u => c.setUpstreamProxy u
  | .setUpstreamProxyFunc f => c.setUpstreamProxyFunc f
  | .setMITM config => c.setMITM config
  | .setDialContext dial => c.setDialContext dial
  | .setRequestModifier reqmod => c.setRequestModifier reqmod
  | .setResponseModifier resmod => c.setResponseModifier resmod

/-- The setter calls `acts`, in order. -/
def run (c : Config) (acts : List Setter) : Config := acts.foldl apply c

end Config

/-! ## The settings a caller asked for -/

/-- The last value given to each setter: `none` where a setter was never called, and the
`net.Dialer` of `NewProxy` for the dialer. -/
structure Settings where
  roundTripper : Option RoundTripper
  upstream : Option (Option ProxyFunc)
  mitm : Option Nat
  dial : DialFunc
  reqmod : ModRef
  resmod : ModRef
  deriving DecidableEq, Repr

namespace Settings

/-- The settings of `NewProxy`. -/
def initial : Settings := ⟨none, none, none, .netDialer, .noop, .noop⟩

/-- A setter overwrites its own setting. -/
def set (s : Settings) : Setter → Settings
  | .setRoundTripper rt => { s with roundTripper := some rt }
  | .setUpstreamProxy u => { s with upstream := some (some (.url u)) }
  | .setUpstreamProxyFunc f => { s with upstream := some f }
  | .setMITM config => { s with mitm := config }
  | .setDialContext dial => { s with dial := dial }
  | .setRequestModifier reqmod => { s with reqmod := Config.orNoop reqmod }
  | .setResponseModifier resmod => { s with resmod := Config.orNoop resmod }

def run (s : Settings) (acts : List Setter) : Settings := acts.foldl set s

/-- The proxy these settings describe. Its dialer is the last one, behind `IgnoreSIGPIPE`, and so
is its transport's, with no HTTP/2. The transport is the last round tripper set, if any, with
the last upstream, nil if there was none; or else the transport of `NewProxy`, with the last
upstream, the environment if there was none. -/
def config (s : Settings) : Config where
  roundTripper := match s.roundTripper with
    | none => .transport ⟨some [], s.upstream.getD (some .fromEnvironment),
        some (.ignoreSIGPIPE s.dial), none⟩
    | some (.transport tr) => .transport
        { tr with tlsNextProto := some [], proxy := s.upstream.join,
                  dialContext := some (.ignoreSIGPIPE s.dial) }
    | some (.other rt) => .other rt
  dial := some (.ignoreSIGPIPE s.dial)
  mitm := s.mitm
  proxyURL := s.upstream.join
  reqmod := s.reqmod
  resmod := s.resmod

/-- Setters of different settings commute. -/
theorem set_comm (s : Settings) {a b : Setter} (h : a.setting ≠ b.setting) :
    (s.set a).set b = (s.set b).set a := by
  cases a <;> cases b <;> first | rfl | exact absurd rfl h

/-- A setter hides an earlier one of the same setting. -/
theorem set_set (s : Settings) {a b : Setter} (h : a.setting = b.setting) :
    (s.set a).set b = s.set b := by
  cases a <;> cases b <;> first | rfl | exact absurd h nofun

/-- Whether a round tripper or an upstream was ever set. -/
theorem set_wired (s : Settings) (a : Setter) :
    ((s.set a).roundTripper.isSome ∨ (s.set a).upstream.isSome) ↔
      (s.roundTripper.isSome ∨ s.upstream.isSome) ∨
        a.setting = .roundTripper ∨ a.setting = .upstream := by
  cases a <;> simp [set, Setter.setting]

theorem run_wired (s : Settings) (acts : List Setter) :
    ((s.run acts).roundTripper.isSome ∨ (s.run acts).upstream.isSome) ↔
      (s.roundTripper.isSome ∨ s.upstream.isSome) ∨
        ∃ a ∈ acts, a.setting = .roundTripper ∨ a.setting = .upstream := by
  induction acts generalizing s with
  | nil => simp [run]
  | cons a acts ih =>
    rw [run, List.foldl_cons, ← run, ih, set_wired]
    simp only [List.mem_cons, exists_eq_or_imp, or_assoc]

end Settings

/-! ## The setters refine the settings -/

/-- One setter is one step of the settings. -/
theorem config_apply (s : Settings) (a : Setter) : s.config.apply a = (s.set a).config := by
  rcases s with ⟨_ | ⟨_ | _⟩, _, _, _, _, _⟩ <;> cases a <;>
    first | rfl | (rename_i rt; cases rt <;> rfl)

theorem config_run (s : Settings) (acts : List Setter) :
    s.config.run acts = (s.run acts).config := by
  induction acts generalizing s with
  | nil => rfl
  | cons a acts ih =>
    rw [Config.run, List.foldl_cons, config_apply]
    exact ih (s.set a)

theorem newProxy_eq : newProxy = Settings.initial.config := rfl

/-- Any sequence of setters after `NewProxy` leaves the proxy that the last value given to each
setter describes. So setters of different settings may come in either order, and a setter
followed by another of the same setting has no effect. -/
theorem newProxy_run_order (acts pre post : List Setter) (a b : Setter) :
    newProxy.run acts = (Settings.initial.run acts).config ∧
      newProxy.run (pre ++ a :: b :: post) =
        if a.setting = b.setting then newProxy.run (pre ++ b :: post)
        else newProxy.run (pre ++ b :: a :: post) := by
  have hrun : ∀ acts, newProxy.run acts = (Settings.initial.run acts).config := fun acts =>
    newProxy_eq ▸ config_run Settings.initial acts
  refine ⟨hrun acts, ?_⟩
  simp only [hrun, Settings.run, List.foldl_append, List.foldl_cons]
  split_ifs with h
  · rw [Settings.set_set _ h]
  · rw [Settings.set_comm _ h]

/-- After any sequence of setters, a transport in the proxy dials with the proxy's dialer, which
is set, and does not upgrade to HTTP/2. It asks the proxy's upstream exactly when a round
tripper or an upstream was ever set; otherwise it is the transport of `NewProxy`, which asks the
environment, while `p.proxyURL` is nil. -/
theorem transport_follows (acts : List Setter) {tr : Transport}
    (htr : (newProxy.run acts).roundTripper = .transport tr) :
    (newProxy.run acts).dial.isSome ∧ tr.dialContext = (newProxy.run acts).dial ∧
      tr.tlsNextProto = some [] ∧
      (tr.proxy = (newProxy.run acts).proxyURL ↔
        ∃ a ∈ acts, a.setting = .roundTripper ∨ a.setting = .upstream) ∧
      (tr.proxy ≠ (newProxy.run acts).proxyURL →
        tr.proxy = some .fromEnvironment ∧ (newProxy.run acts).proxyURL = none) := by
  have hwired := Settings.run_wired Settings.initial acts
  rw [newProxy_eq, config_run] at htr ⊢
  generalize Settings.initial.run acts = s at htr hwired
  simp only [Settings.initial, Option.isSome_none, Bool.false_eq_true, or_self, false_or]
    at hwired
  rw [← hwired]
  rcases s with ⟨_ | ⟨tr' | rt⟩, _ | up, _, dial, _, _⟩ <;>
    simp only [Settings.config, RoundTripper.transport.injEq, reduceCtorEq] at htr <;>
    subst htr <;> simp [Settings.config]

/-- After `NewProxy` alone, its transport asks the environment while `p.proxyURL` is nil. -/
theorem transport_follows_newProxy :
    let tr : Transport := ⟨some [], some .fromEnvironment, some (.ignoreSIGPIPE .netDialer), none⟩
    (newProxy.run []).roundTripper = .transport tr ∧
      ((newProxy.run []).dial.isSome ∧ tr.dialContext = (newProxy.run []).dial ∧
        tr.tlsNextProto = some [] ∧
        (tr.proxy = (newProxy.run []).proxyURL ↔
          ∃ a ∈ ([] : List Setter), a.setting = .roundTripper ∨ a.setting = .upstream) ∧
        (tr.proxy ≠ (newProxy.run []).proxyURL →
          tr.proxy = some .fromEnvironment ∧ (newProxy.run []).proxyURL = none)) :=
  ⟨rfl, transport_follows [] rfl⟩

end Martian
