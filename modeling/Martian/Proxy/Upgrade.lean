import Mathlib.Data.List.Basic
import Mathlib.Data.List.DropRight

/-!
# Protocol upgrades in headers

`upgradeType(h)` of `proxy.go` decides whether a request or a response asks for a protocol
upgrade: the `Connection` header must list the token `Upgrade`, checked with
`httpguts.HeaderValuesContainsToken`, and the upgrade is then the first `Upgrade` value.
`handle` reads it before the modifiers run, and after them sets `Connection: Upgrade` and
`Upgrade` again (`restoreUpgrade`), since a modifier may strip hop-by-hop headers.

Header values are Go strings, so they are bytes here. `headerValueContainsToken` is the loop of
`httpguts` over the commas of a value; `headerValueContainsToken_eq` says that it tests each
comma-separated element, with spaces and tabs around it trimmed, against the token.
`upgradeType_spec` states what `upgradeType` decides, and that the header `handle` sends on
asks for the upgrade the message asked for when `handle` read it, whatever the modifiers did.

Header keys are canonical here: the keys the code uses (`Connection`, `Upgrade`) are.
-/

namespace Martian

/-- The bytes of a Go string constant of ASCII characters. -/
def ascii (s : String) : List UInt8 := s.toList.map fun c => c.toNat.toUInt8

/-- An `http.Header`: the values of each canonical key, `[]` when the key is absent. -/
def Header := String → List (List UInt8)

/-- `h.Set(key, value)`. -/
def Header.set (h : Header) (key : String) (value : List UInt8) : Header :=
  Function.update h key [value]

/-- `h.Get(key)`: the first value, `""` when there is none. -/
def Header.get (h : Header) (key : String) : List UInt8 := (h key).headD []

/-! ## `httpguts` -/

/-- `isOWS(b)`: a space or a tab. -/
def isOWS (b : UInt8) : Bool := b == 32 || b == 9

/-- `trimOWS(x)`: `x` without its leading, then its trailing, spaces and tabs. -/
def trimOWS (x : List UInt8) : List UInt8 := (x.dropWhile isOWS).rdropWhile isOWS

/-- `lowerASCII(b)`. -/
def lowerASCII (b : UInt8) : UInt8 :=
  if 65 ≤ b.toNat ∧ b.toNat ≤ 90 then (b.toNat + 32).toUInt8 else b

/-- `tokenEqual(t1, t2)`: equal lengths, and at each position a byte of `t1` that is ASCII and
equal to the byte of `t2` up to ASCII case. Ranging over `t1` yields a rune of at least
`utf8.RuneSelf` at the first byte that is not ASCII, and the comparison fails there. -/
def tokenEqual (t1 t2 : List UInt8) : Bool :=
  t1.length == t2.length &&
    (t1.zip t2).all fun p => p.1.toNat < 128 && lowerASCII p.1 == lowerASCII p.2

theorem indexOf?_lt {v : List UInt8} {c : UInt8} {k : Nat} (h : v.indexOf? c = some k) :
    k < v.length :=
  (List.findIdx?_eq_some_iff_getElem.mp h).1

/-- `headerValueContainsToken(v, token)`: the loop over the commas of `v`
(`strings.IndexByte(v, ',')`), each element before a comma tested, then the rest. -/
def headerValueContainsToken (v token : List UInt8) : Bool :=
  match h : v.indexOf? 44 with
  | some comma =>
    tokenEqual (trimOWS (v.take comma)) token || headerValueContainsToken (v.drop (comma + 1)) token
  | none => tokenEqual (trimOWS v) token
termination_by v.length
decreasing_by
  have := indexOf?_lt h
  simp only [List.length_drop]
  omega

/-- `httpguts.HeaderValuesContainsToken(values, token)`. -/
def headerValuesContainsToken (values : List (List UInt8)) (token : List UInt8) : Bool :=
  values.any (headerValueContainsToken · token)

/-! ## `upgradeType` and `handle` -/

/-- `upgradeType(h)`. -/
def upgradeType (h : Header) : List UInt8 :=
  if !headerValuesContainsToken (h "Connection") (ascii "Upgrade") then [] else h.get "Upgrade"

/-- The header `handle` sends on after the modifiers left `h`, when `upgradeType` of the header
it read was `up`: `Connection: Upgrade` and `Upgrade: up` set again when `up` is not `""`. -/
def restoreUpgrade (h : Header) (up : List UInt8) : Header :=
  if up ≠ [] then (h.set "Connection" (ascii "Upgrade")).set "Upgrade" up else h

/-! ## The comma loop -/

/-- The elements of a value up to its first comma, and after it. -/
theorem splitOn_of_indexOf? {v : List UInt8} {c : UInt8} {k : Nat} (h : v.indexOf? c = some k) :
    v.splitOn c = v.take k :: (v.drop (k + 1)).splitOn c := by
  induction v generalizing k with
  | nil => simp at h
  | cons x xs ih =>
    rw [List.indexOf?_cons] at h
    by_cases hx : x == c
    · rw [if_pos hx, Option.some.injEq] at h
      subst h
      simp [List.splitOn, List.splitOnP_cons, hx]
    · rw [if_neg hx, Option.map_eq_some'] at h
      obtain ⟨k, hk, rfl⟩ := h
      simp only [List.splitOn] at ih ⊢
      rw [List.splitOnP_cons, if_neg hx, ih hk]
      rfl

theorem splitOn_of_indexOf?_none {v : List UInt8} {c : UInt8} (h : v.indexOf? c = none) :
    v.splitOn c = [v] :=
  List.splitOnP_eq_single _ _ (by simpa using List.indexOf?_eq_none_iff.mp h)

/-- The comma loop tests every comma-separated element of the value, trimmed, against the
token. -/
theorem headerValueContainsToken_eq (v token : List UInt8) :
    headerValueContainsToken v token = (v.splitOn 44).any fun e => tokenEqual (trimOWS e) token := by
  induction v, token using headerValueContainsToken.induct with
  | case1 v token comma h ih =>
    rw [headerValueContainsToken, splitOn_of_indexOf? h, List.any_cons, ← ih]
    split <;> simp_all
  | case2 v token h =>
    rw [headerValueContainsToken, splitOn_of_indexOf?_none h]
    split <;> simp_all

/-- `tokenEqual` holds exactly when the first token is ASCII and the two are equal up to ASCII
case. -/
theorem tokenEqual_iff (t1 t2 : List UInt8) :
    tokenEqual t1 t2 = true ↔ (∀ b ∈ t1, b.toNat < 128) ∧ t1.map lowerASCII = t2.map lowerASCII := by
  induction t1 generalizing t2 with
  | nil => cases t2 <;> simp [tokenEqual]
  | cons b t1 ih =>
    cases t2 with
    | nil => simp [tokenEqual]
    | cons c t2 =>
      have h := ih t2
      simp only [tokenEqual, Bool.and_eq_true, beq_iff_eq, List.length_cons,
        Nat.add_right_cancel_iff, List.zip_cons_cons, List.all_cons, decide_eq_true_eq] at h ⊢
      simp only [List.forall_mem_cons, List.map_cons, List.cons.injEq]
      constructor
      · rintro ⟨hlen, ⟨hb, hbc⟩, hall⟩
        obtain ⟨h1, h2⟩ := h.mp ⟨hlen, hall⟩
        exact ⟨⟨hb, h1⟩, hbc, h2⟩
      · rintro ⟨⟨hb, h1⟩, hbc, h2⟩
        obtain ⟨hlen, hall⟩ := h.mpr ⟨h1, h2⟩
        exact ⟨hlen, ⟨hb, hbc⟩, hall⟩

/-- `HeaderValuesContainsToken(values, "Upgrade")`: some comma-separated element of a value,
trimmed, is ASCII and spells `upgrade` in either case. -/
theorem headerValuesContainsToken_upgrade (values : List (List UInt8)) :
    headerValuesContainsToken values (ascii "Upgrade") = true ↔
      ∃ v ∈ values, ∃ e ∈ v.splitOn (44 : UInt8),
        (∀ b ∈ trimOWS e, b.toNat < 128) ∧ (trimOWS e).map lowerASCII = ascii "upgrade" := by
  have hup : (ascii "Upgrade").map lowerASCII = ascii "upgrade" := by decide
  simp only [headerValuesContainsToken, headerValueContainsToken_eq, List.any_eq_true,
    tokenEqual_iff, hup]

/-- The header with `Connection: Upgrade` and `Upgrade: up` set asks for `up`. -/
theorem upgradeType_set (h : Header) (up : List UInt8) :
    upgradeType ((h.set "Connection" (ascii "Upgrade")).set "Upgrade" up) = up := by
  have hc : headerValueContainsToken (ascii "Upgrade") (ascii "Upgrade") = true := by
    rw [headerValueContainsToken_eq]
    decide
  simp [upgradeType, Header.set, Header.get, headerValuesContainsToken, Function.update, hc]

/-- What `upgradeType` decides, and how `handle` keeps it. A message asks for an upgrade exactly
when one of its `Connection` values has a comma-separated element that, without the spaces and
tabs around it, is `upgrade` in ASCII letters of either case; the upgrade is then its first
`Upgrade` value. The header `handle` sends on asks for the upgrade the message asked for when it
was read, whatever header the modifiers left, and for what the modifiers left otherwise. -/
theorem upgradeType_spec (h h' : Header) :
    upgradeType h =
        (if ∃ v ∈ h "Connection", ∃ e ∈ v.splitOn (44 : UInt8),
            (∀ b ∈ trimOWS e, b.toNat < 128) ∧ (trimOWS e).map lowerASCII = ascii "upgrade"
          then h.get "Upgrade" else []) ∧
      upgradeType (restoreUpgrade h' (upgradeType h)) =
        if upgradeType h ≠ [] then upgradeType h else upgradeType h' := by
  refine ⟨?_, ?_⟩
  · have hasks := headerValuesContainsToken_upgrade (h "Connection")
    unfold upgradeType
    by_cases hc : headerValuesContainsToken (h "Connection") (ascii "Upgrade") = true
    · simp [if_pos (hasks.mp hc), hc]
    · simp [if_neg (mt hasks.mpr hc), hc]
  · unfold restoreUpgrade
    split_ifs
    · exact upgradeType_set h' _
    · rfl

end Martian
