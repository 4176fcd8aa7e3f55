import Martian.Proxy.Invariant

/-!
# Five failed reads in a row at most

`handleLoop` counts the iterations in a row whose `handle` returned an error, and closes the
connection at the fifth, or at once for a closeable error. A request that does not parse is such
an error: `handle` returns the parser's error. So a client gets at most five failed reads in a
row. `failures` counts the reads that failed since a request was last parsed, and becomes `none`
past five.

* `handleLoop_failures`: no run of `handleLoop` makes `failures` pass five;
* `handleLoop_failed_reads`: the same on the trace: between two requests parsed, at most five
  reads fail.

The serving of a parsed request reads nothing but through a re-entry of `handle`, so it is
covered by `Martian.Proxy.Invariant` for every count.
-/

namespace Martian

open Eng

/-- The failed reads in a row after a read with outcome `out`, from `n` before it; `none` past
five. -/
def ReadOutcome.failures : ReadOutcome → Nat → Option Nat
  | .failed _, n => if n < maxConsecutiveErrors then some (n + 1) else none
  | _, _ => some 0

/-- One move of the count of failed reads in a row. -/
def failStep (x : Option Nat) : Event → Option Nat
  | .readRequest _ _ out => x.bind out.failures
  | _ => x

/-- The failed reads in a row at the end of a trace. -/
def failures (tr : List Event) : Option Nat := tr.foldl failStep (some 0)

@[simp] theorem failures_append (tr es : List Event) :
    failures (tr ++ es) = es.foldl failStep (failures tr) :=
  List.foldl_append ..

/-- A read that failed. -/
def Event.isFailedRead : Event → Bool
  | .readRequest _ _ (.failed _) => true
  | _ => false

/-- A read that parsed a request, whether served or dropped. -/
def Event.isParsedRead : Event → Bool
  | .readRequest _ _ (.parsed _) | .readRequest _ _ (.dropped _) => true
  | _ => false

theorem failStep_none (e : Event) : failStep none e = none := by
  cases e <;> rfl

theorem foldl_failStep_none (es : List Event) : es.foldl failStep none = none := by
  induction es with
  | nil => rfl
  | cons e es ih => simpa [failStep_none] using ih

/-- A move on an event that parses no request: a failed read counts one more, within
`maxConsecutiveErrors`. -/
theorem failStep_of_isParsedRead {e : Event} (he : e.isParsedRead = false) (x : Option Nat) :
    failStep x e =
      if e.isFailedRead then
        x.bind fun n => if n < maxConsecutiveErrors then some (n + 1) else none
      else x := by
  cases e
  all_goals try rfl
  rename_i out
  cases out <;> simp_all [failStep, ReadOutcome.failures, Event.isFailedRead, Event.isParsedRead]

/-- Over events that parse no request, the count goes up by the failed reads, as long as it
stays within `maxConsecutiveErrors`. -/
theorem foldl_failStep {es : List Event} (h : ∀ e ∈ es, e.isParsedRead = false) {k : Nat}
    (hk : k ≤ maxConsecutiveErrors) :
    es.foldl failStep (some k) =
      if k + es.countP Event.isFailedRead ≤ maxConsecutiveErrors then
        some (k + es.countP Event.isFailedRead)
      else none := by
  induction es generalizing k with
  | nil => simp [hk]
  | cons e es ih =>
    rw [List.forall_mem_cons] at h
    rw [List.foldl_cons, failStep_of_isParsedRead h.1, List.countP_cons]
    by_cases hf : e.isFailedRead = true
    · simp only [hf, if_true, Option.some_bind]
      by_cases hlt : k < maxConsecutiveErrors
      · rw [if_pos hlt, ih h.2 (by omega), show k + 1 + es.countP Event.isFailedRead =
          k + (es.countP Event.isFailedRead + 1) by omega]
      · rw [if_neg hlt, foldl_failStep_none, if_neg (by omega)]
    · simpa [hf] using ih h.2 hk

theorem ReadOutcome.failures_le {out : ReadOutcome} {n k : Nat} (h : out.failures n = some k) :
    k ≤ maxConsecutiveErrors := by
  cases out with
  | parsed | dropped => cases h; exact Nat.zero_le _
  | failed =>
    simp only [failures] at h
    split at h
    · cases h; omega
    · cases h

/-- The count never passes `maxConsecutiveErrors`. -/
theorem foldl_failStep_le (es : List Event) {x : Option Nat}
    (hx : ∀ k, x = some k → k ≤ maxConsecutiveErrors) :
    ∀ k, es.foldl failStep x = some k → k ≤ maxConsecutiveErrors := by
  induction es generalizing x with
  | nil => exact hx
  | cons e es ih =>
    refine ih fun k hk => ?_
    cases e
    all_goals try exact hx k hk
    obtain ⟨n, -, hn⟩ := Option.bind_eq_some.mp hk
    exact ReadOutcome.failures_le hn

/-! ## Serving a request reads nothing -/

variable (p : Proxy) (w : World)

theorem failStep_bare {e : Event} (he : e.isBare) (x : Option Nat) : failStep x e = x := by
  cases e <;> simp_all [failStep, Event.isBare]

/-- Every count of failed reads is an invariant of serving a request. -/
theorem failures_serveInvariant (x : Option Nat) :
    ServeInvariant p w fun s => failures s.trace = x where
  tick _ _ hs := hs
  record e he _ hs := by simpa [failStep_bare he] using hs
  hijack _ hs := by simpa [wp_bind, failStep] using hs
  markSecure _ hs := hs
  resetReader _ _ hs := by simpa [wp_bind, failStep] using hs
  resetWriter _ _ hs := by simpa [wp_bind, failStep] using hs
  writeResponse _ _ _ _ hs := by simpa [World.writeResponse, wp_bind, failStep] using hs
  flush _ hs := by simpa [World.flush, wp_bind, failStep] using hs
  writeReply conn _ _ s hs := by
    simp only [Proxy.writeReply, Proxy.refreshWriteDeadline, World.writeResponse, World.flush]
    split <;> simpa [wp_bind, failStep] using hs

/-! ## Reading and handling a request -/

/-- What `handle` leaves from `n` failed reads in a row: none when it returned without error, and
at most `n + 1` otherwise. -/
def AfterHandle (n : Nat) : Option (Option Error) → St → Prop
  | some none, s => failures s.trace = some 0
  | some (some _), s | none, s => ∃ m ≤ n + 1, failures s.trace = some m

theorem AfterHandle.mono {m n : Nat} (hmn : m ≤ n) {r : Option (Option Error)} {s : St}
    (h : AfterHandle m r s) : AfterHandle n r s := by
  rcases r with _ | _ | _
  · obtain ⟨k, hk, hs⟩ := h; exact ⟨k, by omega, hs⟩
  · exact h
  · obtain ⟨k, hk, hs⟩ := h; exact ⟨k, by omega, hs⟩

theorem AfterHandle.congr {n : Nat} {r : Option (Option Error)} {s s' : St}
    (h : AfterHandle n r s) (heq : failures s'.trace = failures s.trace) :
    AfterHandle n r s' := by
  rcases r with _ | _ | _
  · obtain ⟨k, hk, hs⟩ := h; exact ⟨k, hk, heq.trans hs⟩
  · exact heq.trans h
  · obtain ⟨k, hk, hs⟩ := h; exact ⟨k, hk, heq.trans hs⟩

theorem AfterHandle.of_zero {n : Nat} {s : St} (h : failures s.trace = some 0)
    (r : Option (Option Error)) : AfterHandle n r s := by
  rcases r with _ | _ | _
  exacts [⟨0, Nat.zero_le _, h⟩, h, ⟨0, Nat.zero_le _, h⟩]

theorem readRequest_failures (conn : Conn) {n : Nat} (hn : n < maxConsecutiveErrors) :
    Triple (fun s => failures s.trace = some n) (p.readRequest w conn) (Ret fun r s =>
      match r with
      | .ok _ => failures s.trace = some 0
      | .error _ => failures s.trace = some 0 ∨ failures s.trace = some (n + 1)) := by
  intro s hs
  simp only [Proxy.readRequest, wp_bind, World.wp_ask, cont_some, wp_emit, wp_reader]
  split <;> simp only [wp_bind, wp_ite, World.wp_ask, cont_some] <;>
    split <;> simp [wp_bind, wp_ite, hs, hn, failStep, ReadOutcome.failures]

theorem handle_failures (fuel : Nat) (conn : Conn) {n : Nat} (hn : n < maxConsecutiveErrors) :
    Triple (fun s => failures s.trace = some n) (p.handle w fuel conn) (AfterHandle n) := by
  induction fuel generalizing conn n with
  | zero => exact fun _ hs => ⟨n, by omega, hs⟩
  | succ fuel ih =>
    intro s hs
    refine (readRequest_failures p w conn hn).bind_of hs ?_
    rintro (err | req) s₁ hs₁
    · rcases hs₁ with h | h
      exacts [⟨0, Nat.zero_le _, h⟩, ⟨n + 1, le_refl _, h⟩]
    · rw [wp_bind]
      refine ((failures_serveInvariant p w _).serve_post (fun r _ h => AfterHandle.of_zero h r)
        (fun c => ih c (by decide)) conn req).wp_of hs₁ ?_
      rintro (_ | r) s₂ h
      · exact h.mono (Nat.zero_le n)
      · simpa [wp_bind] using (h.mono (Nat.zero_le n)).congr (by simp [failStep])

/-! ## The loop -/

theorem loop_failures (conn : Conn) (fuel : Nat) {errors : Nat}
    (he : errors < maxConsecutiveErrors) :
    Triple (fun s => ∃ n ≤ errors, failures s.trace = some n) (p.loop w conn fuel errors)
      fun _ s => failures s.trace ≠ none := by
  induction fuel generalizing errors with
  | zero => rintro s ⟨n, -, hs⟩; simp [Proxy.loop, hs]
  | succ fuel ih =>
    rintro s ⟨n, hn, hs⟩
    rw [Proxy.loop, wp_bind]
    refine (handle_failures p w fuel conn (by omega)).wp_of hs ?_
    rintro (_ | r) s₁ h
    · obtain ⟨m, -, h⟩ := h
      simp [h]
    have hc : failures s₁.trace ≠ none →
        wp (emit (.close conn)) (fun _ s => failures s.trace ≠ none) s₁ := fun h' => by
      simpa [failStep] using h'
    simp only [cont_some]
    rcases r with _ | err
    · simp only [wp_bind, wp_hijacked, cont_some]
      exact wp_ite_of (fun _ => hc (by simp [AfterHandle] at h; simp [h]))
        fun _ => ih (by omega) s₁ ⟨0, Nat.zero_le _, h⟩
    · obtain ⟨m, hm, h⟩ := h
      refine wp_ite_of (fun _ => hc (by simp [h])) fun hne => ?_
      simp only [wp_bind, wp_hijacked, cont_some]
      exact wp_ite_of (fun _ => hc (by simp [h])) fun _ =>
        ih (by simp only [not_or] at hne; omega) s₁ ⟨m, by omega, h⟩

theorem handleLoop_counts (conn : Conn) (fuel : Nat) :
    Triple (fun s => failures s.trace = some 0) (p.handleLoop w conn fuel)
      fun _ s => failures s.trace ≠ none := by
  intro s hs
  simp only [Proxy.handleLoop, wp_bind, World.wp_ask, cont_some]
  refine wp_ite_of (fun _ => by simp [hs, failStep]) fun _ => ?_
  simp only [wp_bind, wp_modify, cont_some]
  exact loop_failures p w conn fuel (by decide) _ ⟨0, le_refl 0, hs⟩

/-- No run of `handleLoop` has more than five failed reads in a row. -/
theorem handleLoop_failures (conn : Conn) (fuel : Nat) :
    failures (p.handleLoop w conn fuel St.init).2.trace ≠ none :=
  handleLoop_counts p w conn fuel St.init rfl

/-- In every run of `handleLoop`, at most five reads fail between two requests parsed. -/
theorem handleLoop_failed_reads (conn : Conn) (fuel : Nat) {pre mid post : List Event}
    (h : (p.handleLoop w conn fuel St.init).2.trace = pre ++ mid ++ post)
    (hmid : ∀ e ∈ mid, e.isParsedRead = false) :
    mid.countP Event.isFailedRead ≤ maxConsecutiveErrors := by
  have hne := handleLoop_failures p w conn fuel
  rw [h, failures_append, failures_append] at hne
  cases hpre : failures pre with
  | none => simp [hpre, foldl_failStep_none] at hne
  | some k =>
    have hk := foldl_failStep_le pre (fun _ h => by cases h; exact Nat.zero_le _) k hpre
    rw [hpre, foldl_failStep hmid hk] at hne
    split at hne
    · omega
    · simp [foldl_failStep_none] at hne

/-- A client that sends nothing but malformed requests. -/
def World.malformed : World :=
  { World.plain with readRequest := fun _ => .error (.other "malformed HTTP request") }

set_option smartUnfolding false in
/-- The client gets its five failed reads, each followed by the half-close, and then the
connection is closed. -/
theorem handleLoop_failed_reads_malformed :
    ∃ mid : List Event, mid = [.setReadDeadline .socket none,
          .readRequest (.conn .socket) 1 (.failed (.other "malformed HTTP request")),
          .closeWrite .socket, .setReadDeadline .socket none,
          .readRequest (.conn .socket) 3 (.failed (.other "malformed HTTP request")),
          .closeWrite .socket, .setReadDeadline .socket none,
          .readRequest (.conn .socket) 5 (.failed (.other "malformed HTTP request")),
          .closeWrite .socket, .setReadDeadline .socket none,
          .readRequest (.conn .socket) 7 (.failed (.other "malformed HTTP request")),
          .closeWrite .socket, .setReadDeadline .socket none,
          .readRequest (.conn .socket) 9 (.failed (.other "malformed HTTP request")),
          .closeWrite .socket, .close .socket] ∧
      (Proxy.plain.handleLoop World.malformed .socket 6 St.init).2.trace = [] ++ mid ++ [] ∧
      (∀ e ∈ mid, e.isParsedRead = false) ∧
      mid.countP Event.isFailedRead ≤ maxConsecutiveErrors := by
  refine ⟨_, rfl, ?h, ?m, handleLoop_failed_reads _ _ .socket 6 ?h ?m⟩
  · rfl
  · decide

end Martian
