import HubDevice.Agent.Command
import HubDevice.Proofs.Json.Whole
import Mathlib.Data.List.Induction

/-!
# Commands and their answers

A request asks for an interval or it does not (`Asks`), and this alone decides which interval is set and which call is
made (`Answers`). What the responder says about the call becomes the result and has no other effect, whatever it says:
requests that are handled one after another change the interval and make calls as with a responder that never fails
(`handled_append`).
-/

namespace HubDevice.Command

/-! ## What a request asks for -/

/-- An interval of so many whole seconds is allowed. -/
def InBounds (n : Nat) : Prop := minSeconds ≤ n ∧ n ≤ maxSeconds

instance (n : Nat) : Decidable (InBounds n) := inferInstanceAs (Decidable (_ ∧ _))

/-- The request asks for an interval of so many seconds, which is allowed. -/
inductive Asks : IncomingRequest → Nat → Prop
  /-- The payload of the call is the number. -/
  | method {m : MethodRequest} {n : Nat} (name : m.name = methodName) (spells : Json.Spells m.payload n)
      (allowed : InBounds n) : Asks (.method m) n
  /-- The desired property is the number. -/
  | desired {version : Option Int} {before after : TwinCollection} {n : Nat}
      (first : ∀ p ∈ before, p.1 ≠ propertyName) (allowed : InBounds n) :
      Asks (.desired version (before ++ (propertyName, .int n) :: after)) n

variable {i : Interval} {n : Nat} {r : IncomingRequest} {m : MethodRequest} {version : Option Int}
  {patch : TwinCollection}

theorem Asks.inBounds (h : Asks r n) : InBounds n := by cases h <;> assumption

theorem seconds?_eq_some {v : Json} : seconds? v = some n ↔ v = .int n ∧ InBounds n := by
  unfold seconds?
  cases v with
  | int k =>
    simp only [Option.ite_none_right_eq_some, Option.some.injEq, Json.int.injEq, InBounds]
    omega
  | _ => simp

theorem payload_eq_some {payload : Octets} :
    (Json.parse? payload).bind seconds? = some n ↔ Json.Spells payload n ∧ InBounds n := by
  simp only [Option.bind_eq_some_iff, seconds?_eq_some]
  constructor
  · rintro ⟨v, hv, rfl, hn⟩
    exact ⟨(Json.parse?_eq_some_int.mp hv).2, hn⟩
  · rintro ⟨hspells, hn⟩
    have hsmall : n < 2 ^ 64 := Nat.lt_of_le_of_lt hn.2 (by decide)
    exact ⟨_, Json.parse?_eq_some_int.mpr ⟨hsmall, hspells⟩, rfl, hn⟩

theorem asks_method :
    Asks (.method m) n ↔ m.name = methodName ∧ (Json.parse? m.payload).bind seconds? = some n := by
  rw [payload_eq_some]
  constructor
  · intro h
    cases h with
    | method name spells allowed => exact ⟨name, spells, allowed⟩
  · rintro ⟨name, spells, allowed⟩
    exact .method name spells allowed

theorem asks_desired : Asks (.desired version patch) n ↔
    ((patch.find? fun p => p.1 = propertyName).bind fun p => seconds? p.2) = some n := by
  simp only [Option.bind_eq_some_iff, seconds?_eq_some, List.find?_eq_some_iff_append]
  constructor
  · intro h
    cases h with
    | desired first allowed => exact ⟨_, ⟨by simp, _, _, rfl, by simpa using first⟩, rfl, allowed⟩
  · rintro ⟨⟨name, v⟩, ⟨hname, before, after, rfl, first⟩, rfl, allowed⟩
    cases of_decide_eq_true hname
    exact .desired (by simpa using first) allowed

/-! ## What a request leads to -/

theorem seconds_reaction : (reaction r).seconds = some n ↔ Asks r n := by
  cases r with
  | method m =>
    rw [asks_method, reaction, onMethod]
    by_cases hname : m.name = methodName
    · cases (Json.parse? m.payload).bind seconds? <;> simp [hname]
    · simp [hname]
  | desired version patch =>
    rw [asks_desired, reaction, onDesired]
    cases (patch.find? fun p => p.1 = propertyName).bind fun p => seconds? p.2 <;> simp
  | input name message => exact ⟨nofun, nofun⟩

theorem value_change (s : Span) : (i.change s).value = s := by
  unfold Interval.change
  split
  · assumption
  · rfl

/-- The interval becomes what was asked for. -/
theorem value_apply (h : Asks r n) : ((reaction r).apply i).value = Span.ofSeconds n := by
  rw [Reaction.apply, seconds_reaction.mpr h]
  exact value_change _

/-- The interval stays when nothing was asked for. -/
theorem apply_eq (h : ∀ n, ¬ Asks r n) : (reaction r).apply i = i := by
  have hnone : (reaction r).seconds = none :=
    Option.eq_none_iff_forall_ne_some.mpr fun n hn => h n (seconds_reaction.mp hn)
  rw [Reaction.apply, hnone]

/-- The response to a call of a method. -/
structure Answers (m : MethodRequest) (response : MethodResponse) : Prop where
  id : response.requestId = m.requestId
  /-- The interval is set. -/
  accepted : response.status = 200 ↔ ∃ n, Asks (.method m) n
  /-- The method is known, but not what it is called with. -/
  rejected : response.status = 400 ↔ m.name = methodName ∧ ∀ n, ¬ Asks (.method m) n
  unknown : response.status = 404 ↔ m.name ≠ methodName

/-- The call that a request leads to. -/
inductive LeadsTo : IncomingRequest → Option DataCall → Prop
  | response {m : MethodRequest} {response : MethodResponse} (h : Answers m response) :
      LeadsTo (.method m) (some (.respond response))
  | report {version : Option Int} {patch : TwinCollection} {n : Nat} (h : Asks (.desired version patch) n) :
      LeadsTo (.desired version patch) (some (.patchTwin [(propertyName, .int n)]))
  | ignored {version : Option Int} {patch : TwinCollection} (h : ∀ n, ¬ Asks (.desired version patch) n) :
      LeadsTo (.desired version patch) none
  | input {name : String} {message : Message} : LeadsTo (.input name message) none

theorem leadsTo_reaction : LeadsTo r (reaction r).call := by
  cases r with
  | method m =>
    rw [reaction, onMethod]
    by_cases hname : m.name = methodName
    · rw [if_pos hname]
      cases hasked : (Json.parse? m.payload).bind seconds? with
      | some n =>
        have hasks : Asks (.method m) n := asks_method.mpr ⟨hname, hasked⟩
        exact .response ⟨rfl, ⟨fun _ => ⟨n, hasks⟩, fun _ => rfl⟩, ⟨nofun, fun h => absurd hasks (h.2 n)⟩,
          ⟨nofun, fun h => absurd hname h⟩⟩
      | none =>
        have hasks : ∀ n, ¬ Asks (.method m) n := by simp [asks_method, hasked]
        exact .response ⟨rfl, ⟨nofun, fun ⟨n, h⟩ => absurd h (hasks n)⟩, ⟨fun _ => ⟨hname, hasks⟩, fun _ => rfl⟩,
          ⟨nofun, fun h => absurd hname h⟩⟩
    · have hasks : ∀ n, ¬ Asks (.method m) n := by simp [asks_method, hname]
      rw [if_neg hname]
      exact .response ⟨rfl, ⟨nofun, fun ⟨n, h⟩ => absurd h (hasks n)⟩, ⟨nofun, fun h => absurd h.1 hname⟩,
        ⟨fun _ => hname, fun _ => rfl⟩⟩
  | desired version patch =>
    rw [reaction, onDesired]
    cases hasked : (patch.find? fun p => p.1 = propertyName).bind fun p => seconds? p.2 with
    | some n => exact .report (asks_desired.mpr hasked)
    | none => exact .ignored (by simp [asks_desired, hasked])
  | input name message => exact .input

/-! ## Handling requests -/

/-- A responder that notes the calls it is asked to make, the newest first, and answers a call by all of them. -/
def noting (answer : List DataCall → Except ClientError Reply) (calls : List DataCall) (c : DataCall) :
    List DataCall × Except ClientError Reply :=
  (c :: calls, answer (c :: calls))

/-- What requests have led to; the newest comes first. -/
structure Handled where
  interval : Interval
  calls : List DataCall := []
  results : List (Except ClientError Unit) := []

variable {answer answer' : List DataCall → Except ClientError Reply} {h : Handled} {rs : List IncomingRequest}

/-- Handles one more request. -/
def Handled.next (answer : List DataCall → Except ClientError Reply) (h : Handled) (r : IncomingRequest) : Handled :=
  let (interval, calls, result) := handle (noting answer) h.interval h.calls r
  { interval, calls, results := result :: h.results }

/-- Handles requests one after another. -/
def handled (answer : List DataCall → Except ClientError Reply) (i : Interval) (rs : List IncomingRequest) : Handled :=
  rs.foldl (Handled.next answer) { interval := i }

theorem Handled.next_eq : h.next answer r = {
    interval := (reaction r).apply h.interval
    calls := (reaction r).call.toList ++ h.calls
    results := (match (reaction r).call with
      | none => .ok ()
      | some c => (answer (c :: h.calls)).map fun _ => ()) :: h.results } := by
  unfold next handle
  dsimp only
  cases (reaction r).call <;> rfl

theorem handled_append_singleton : handled answer i (rs ++ [r]) = (handled answer i rs).next answer r := by
  rw [handled, List.foldl_append]
  rfl

/-- The interval stays within its bounds. -/
theorem exists_value_handled (hi : ∃ n, InBounds n ∧ i.value = Span.ofSeconds n) :
    ∃ n, InBounds n ∧ (handled answer i rs).interval.value = Span.ofSeconds n := by
  induction rs using List.reverseRec with
  | nil => exact hi
  | append_singleton rs r ih =>
    rw [handled_append_singleton, Handled.next_eq]
    by_cases hasks : ∃ n, Asks r n
    · obtain ⟨n, hn⟩ := hasks
      exact ⟨n, hn.inBounds, value_apply hn⟩
    · rw [apply_eq (not_exists.mp hasks)]
      exact ih

/-- What the responder answers shows in the results only. -/
theorem handled_answer (answer answer' : List DataCall → Except ClientError Reply) :
    (handled answer' i rs).interval = (handled answer i rs).interval ∧
      (handled answer' i rs).calls = (handled answer i rs).calls := by
  induction rs using List.reverseRec with
  | nil => exact ⟨rfl, rfl⟩
  | append_singleton rs r ih =>
    rw [handled_append_singleton, handled_append_singleton, Handled.next_eq, Handled.next_eq]
    exact ⟨congrArg (reaction r).apply ih.1, congrArg ((reaction r).call.toList ++ ·) ih.2⟩

/-- After any requests the interval is allowed, and one more request sets the interval that it asks for, if any, and
makes the call that it leads to, once. The result is what the responder says about this call, which changes nothing
else. -/
theorem handled_append {k : Nat} (hk : InBounds k) (hi : i.value = Span.ofSeconds k)
    (answer : List DataCall → Except ClientError Reply) (rs : List IncomingRequest) (r : IncomingRequest) :
    let before := handled answer i rs
    let after := handled answer i (rs ++ [r])
    (∃ n, InBounds n ∧ before.interval.value = Span.ofSeconds n) ∧
    (∀ n, Asks r n → after.interval.value = Span.ofSeconds n) ∧
    ((∀ n, ¬ Asks r n) → after.interval = before.interval) ∧
    (∃ call, LeadsTo r call ∧ after.calls = call.toList ++ before.calls ∧
      after.results = (match call with
        | none => .ok ()
        | some _ => (answer after.calls).map fun _ => ()) :: before.results) ∧
    ∀ answer', (handled answer' i (rs ++ [r])).interval = after.interval ∧
      (handled answer' i (rs ++ [r])).calls = after.calls := by
  have hstep : handled answer i (rs ++ [r]) = _ := handled_append_singleton
  rw [Handled.next_eq] at hstep
  refine ⟨exists_value_handled ⟨k, hk, hi⟩, fun n hn => ?_, fun hnone => ?_,
    ⟨(reaction r).call, leadsTo_reaction, ?_, ?_⟩, handled_answer answer⟩
  · rw [hstep]
    exact value_apply hn
  · rw [hstep]
    exact apply_eq hnone
  · rw [hstep]
  · rw [hstep]
    cases (reaction r).call <;> rfl

/-- Five seconds after one minute, from a responder that never answers without an error. -/
theorem handled_append_minute :
    InBounds 30 ∧ ({ value := Span.ofSeconds 30 } : Interval).value = Span.ofSeconds 30 ∧
    (handled (fun _ => .error .connectionLost) { value := Span.ofSeconds 30 }
      [.desired none [(propertyName, .int 60)], .method ⟨methodName, "1", [0x20, 0x35]⟩]).interval.value =
        Span.ofSeconds 5 := by
  have hasks : Asks (.method ⟨methodName, "1", [0x20, 0x35]⟩) 5 :=
    .method rfl ⟨[0x20], [], by decide, by decide, by decide⟩ (by decide)
  refine ⟨by decide, rfl, ?_⟩
  exact (handled_append (k := 30) (by decide) rfl (fun _ => .error .connectionLost)
    [.desired none [(propertyName, .int 60)]] _).2.1 5 hasks

end HubDevice.Command
