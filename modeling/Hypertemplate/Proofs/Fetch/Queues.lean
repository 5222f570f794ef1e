import Hypertemplate.Fetch.Script
import Mathlib

/-!
# Queues of scripted answers

A route is a method, in capitals, and a URL. Whatever is done with a script, the queue of a route is the end of the
list of all answers that were ever queued for it, and only a request on the route that is not answered with the last
of them moves the queue on (`turn_send`). So the answers on a route are given in turn, each at least once before the
next one, and the last one again until another one is queued (`replies_in_turn`).
-/

namespace Hypertemplate

open Text

/-- A request goes to a route. -/
def Request.On (r : Request) (method url : String) : Prop := r.method = method ∧ r.url = url

instance (r : Request) (method url : String) : Decidable (r.On method url) :=
  inferInstanceAs (Decidable (_ ∧ _))

namespace Script

variable {s : Script} {method url : String} {reply : Reply} {r : Request}

/-! ## Queues -/

/-- The answers that wait on a route. -/
def queue (s : Script) (method url : String) : List Reply := (s.replies? method url).getD []

/-- What a change of one queue does to the queues. -/
theorem find?_updateRoute (method url : String) (f : List Reply → List Reply) (method' url' : String) :
    ∀ routes : List Route,
      ((updateRoute method url f routes).find? fun r => r.method == method' && r.url == url').map (·.replies) =
        if method = method' ∧ url = url' then
          some (f (((routes.find? fun r => r.method == method' && r.url == url').map (·.replies)).getD []))
        else (routes.find? fun r => r.method == method' && r.url == url').map (·.replies) := by
  intro routes
  induction routes with
  | nil =>
    by_cases hroute : method = method' ∧ url = url'
    · obtain ⟨rfl, rfl⟩ := hroute
      simp [updateRoute]
    · simp [updateRoute, hroute]
  | cons route rest ih =>
    rw [updateRoute]
    split
    · next hhere =>
      obtain ⟨rfl, rfl⟩ := hhere
      by_cases hroute : route.method = method' ∧ route.url = url'
      · simp [hroute]
      · simp [hroute]
    · next hhere =>
      by_cases hroute : route.method = method' ∧ route.url = url'
      · have hother : ¬ (method = method' ∧ url = url') := by
          rintro ⟨rfl, rfl⟩
          exact hhere hroute
        simp [hroute, hother]
      · simpa [List.find?_cons, hroute] using ih

theorem queue_updateRoute (s : Script) (method url : String) (f : List Reply → List Reply)
    (method' url' : String) :
    ({ s with routes := updateRoute method url f s.routes } : Script).queue method' url' =
      if method = method' ∧ url = url' then f (s.queue method' url') else s.queue method' url' := by
  rw [queue, replies?, find?_updateRoute]
  split
  · rfl
  · rfl

theorem queue_push (s : Script) (method url : String) (reply : Reply) (method' url' : String) :
    (s.push method url reply).queue method' url' =
      if upperAscii method = method' ∧ url = url' then s.queue method' url' ++ [reply]
      else s.queue method' url' :=
  queue_updateRoute s _ _ _ _ _

/-- A request on a route where nothing waits is refused and leaves all routes as they are. -/
theorem send_of_queue_eq_nil (h : s.queue r.method r.url = []) :
    s.send r = (refusal r, { s with requests := s.requests ++ [r] }) := by
  have hreplies : ({ s with requests := s.requests ++ [r] } : Script).replies? r.method r.url = none ∨
      ({ s with requests := s.requests ++ [r] } : Script).replies? r.method r.url = some [] := by
    change s.replies? r.method r.url = none ∨ s.replies? r.method r.url = some []
    rw [queue] at h
    cases hq : s.replies? r.method r.url with
    | none => exact Or.inl rfl
    | some replies =>
      rw [hq] at h
      exact Or.inr (congrArg some h)
  rw [send]
  rcases hreplies with hreplies | hreplies <;> simp only [hreplies]

/-- A request on a route where answers wait is answered with the next one, which is gone then if it is not the last
one. -/
theorem send_of_queue_eq_cons {rest : List Reply} (h : s.queue r.method r.url = reply :: rest) :
    s.send r = (reply,
      { s with
        requests := s.requests ++ [r]
        routes := updateRoute r.method r.url (fun _ => afterReply (reply :: rest)) s.routes }) := by
  have hreplies : ({ s with requests := s.requests ++ [r] } : Script).replies? r.method r.url =
      some (reply :: rest) := by
    change s.replies? r.method r.url = _
    rw [queue] at h
    cases hq : s.replies? r.method r.url with
    | none =>
      rw [hq] at h
      cases h
    | some replies =>
      rw [hq] at h
      exact congrArg some h
  rw [send]
  simp only [hreplies]

theorem queue_send (s : Script) (r : Request) (method url : String) :
    (s.send r).2.queue method url =
      if r.On method url then afterReply (s.queue method url) else s.queue method url := by
  cases hq : s.queue r.method r.url with
  | nil =>
    rw [send_of_queue_eq_nil hq]
    change s.queue method url = _
    split
    · next hon =>
      obtain ⟨rfl, rfl⟩ := hon
      rw [hq]
      rfl
    · rfl
  | cons reply rest =>
    rw [send_of_queue_eq_cons hq]
    change ({ s with routes := _ } : Script).queue method url = _
    rw [queue_updateRoute]
    by_cases hon : r.On method url
    · obtain ⟨rfl, rfl⟩ := hon
      rw [if_pos ⟨rfl, rfl⟩, if_pos ⟨rfl, rfl⟩, hq]
    · rw [if_neg hon]
      exact if_neg hon

theorem requests_send (s : Script) (r : Request) : (s.send r).2.requests = s.requests ++ [r] := by
  cases hq : s.queue r.method r.url with
  | nil => rw [send_of_queue_eq_nil hq]
  | cons reply rest => rw [send_of_queue_eq_cons hq]

theorem afterReply_eq_drop (replies : List Reply) :
    afterReply replies = replies.drop (if 2 ≤ replies.length then 1 else 0) := by
  match replies with
  | [] => rfl
  | [_] => rfl
  | _ :: _ :: _ => simp [afterReply]

/-! ## What is done with a script -/

/-- An answer is queued for a method, in any letter case, and a URL, or a request is sent. An answer may be a
response or a failure. -/
inductive Step where
  | push (method url : String) (reply : Reply)
  | send (request : Request)

def step (s : Script) : Step → Script
  | .push method url reply => s.push method url reply
  | .send r => (s.send r).2

/-- A new script after steps. -/
def after (steps : List Step) : Script := steps.foldl step {}

/-- The answer that a step queues on a route. -/
def Step.reply? (method url : String) : Step → Option Reply
  | .push m u reply => if upperAscii m = method ∧ u = url then some reply else none
  | .send _ => none

/-- The request that a step sends. -/
def Step.request? : Step → Option Request
  | .push .. => none
  | .send r => some r

/-- All answers that steps queue on a route. -/
def queued (method url : String) (steps : List Step) : List Reply := steps.filterMap (Step.reply? method url)

/-- How many of the answers that steps queue on a route do not wait any more, which is the place of the next one
among them. -/
def turn (method url : String) (steps : List Step) : Nat :=
  (queued method url steps).length - ((after steps).queue method url).length

variable {before between steps : List Step}

theorem after_concat (steps : List Step) (x : Step) : after (steps ++ [x]) = (after steps).step x := by
  simp [after]

theorem queued_append (method url : String) (before between : List Step) :
    queued method url (before ++ between) = queued method url before ++ queued method url between :=
  List.filterMap_append

theorem queued_push (method url : String) (steps : List Step) (m u : String) (reply : Reply) :
    queued method url (steps ++ [.push m u reply]) =
      queued method url steps ++ if upperAscii m = method ∧ u = url then [reply] else [] := by
  rw [queued_append]
  congr 1
  by_cases h : upperAscii m = method ∧ u = url
  · simp [queued, Step.reply?, h]
  · simp [queued, Step.reply?, h]

theorem queued_send (method url : String) (steps : List Step) (r : Request) :
    queued method url (steps ++ [.send r]) = queued method url steps := by
  simp [queued, Step.reply?]

/-- What waits on a route is the end of what was ever queued there, and never nothing once there is something. -/
theorem queue_after (method url : String) (steps : List Step) :
    (after steps).queue method url <:+ queued method url steps ∧
      (queued method url steps ≠ [] → (after steps).queue method url ≠ []) := by
  induction steps using List.reverseRecOn with
  | nil => exact ⟨List.suffix_refl _, fun h => absurd rfl h⟩
  | append_singleton steps x ih =>
    obtain ⟨hsuffix, hne⟩ := ih
    rw [after_concat]
    cases x with
    | push m u reply =>
      rw [queued_push, step, queue_push]
      by_cases hroute : upperAscii m = method ∧ u = url
      · rw [if_pos hroute, if_pos hroute]
        exact ⟨List.suffix_append_inj_of_length_eq rfl |>.mpr ⟨hsuffix, rfl⟩, by simp⟩
      · rw [if_neg hroute, if_neg hroute, List.append_nil]
        exact ⟨hsuffix, hne⟩
    | send r =>
      rw [queued_send, step, queue_send]
      by_cases hon : r.On method url
      · rw [if_pos hon, afterReply_eq_drop]
        refine ⟨(List.drop_suffix _ _).trans hsuffix, fun hqueued hdrop => ?_⟩
        have hlength := List.length_pos_iff.mpr (hne hqueued)
        rw [List.drop_eq_nil_iff] at hdrop
        split at hdrop <;> omega
      · rw [if_neg hon]
        exact ⟨hsuffix, hne⟩

/-- The answers that wait are those that are queued, from the place of the next one on. -/
theorem queue_eq_drop (method url : String) (steps : List Step) :
    (after steps).queue method url = (queued method url steps).drop (turn method url steps) :=
  List.suffix_iff_eq_drop.mp (queue_after method url steps).1

theorem turn_lt (h : queued method url steps ≠ []) :
    turn method url steps < (queued method url steps).length := by
  have hqueued := List.length_pos_iff.mpr h
  have hqueue := List.length_pos_iff.mpr ((queue_after method url steps).2 h)
  rw [turn]
  omega

/-! ## Turns -/

/-- Queueing an answer does not move the place of the next one. -/
theorem turn_push (method url : String) (steps : List Step) (m u : String) (reply : Reply) :
    turn method url (steps ++ [.push m u reply]) = turn method url steps := by
  rw [turn, after_concat, step, queue_push, queued_push, turn]
  split
  · simp only [List.length_append, List.length_singleton]
    omega
  · rw [List.append_nil]

/-- A request moves the place of the next answer by one if it is on the route and is not answered with the last answer
that is queued by then. -/
theorem turn_send (method url : String) (steps : List Step) (r : Request) :
    turn method url (steps ++ [.send r]) =
      if r.On method url ∧ turn method url steps + 1 < (queued method url steps).length
      then turn method url steps + 1 else turn method url steps := by
  have hlength : ((after steps).queue method url).length =
      (queued method url steps).length - turn method url steps := by
    rw [queue_eq_drop, List.length_drop]
  have hle : turn method url steps ≤ (queued method url steps).length := Nat.sub_le _ _
  rw [turn, after_concat, step, queue_send, queued_send]
  by_cases hon : r.On method url
  · rw [if_pos hon, afterReply_eq_drop, List.length_drop]
    simp only [hon, true_and]
    split <;> split <;> omega
  · rw [if_neg hon, if_neg fun h => hon h.1, turn]

/-- Steps without a request on the route, once something is queued there, do not move the place of the next answer. -/
theorem turn_append_of_quiet (hquiet : ∀ b r a, between = b ++ .send r :: a → r.On method url →
    queued method url (before ++ b) = []) :
    turn method url (before ++ between) = turn method url before := by
  induction between using List.reverseRecOn with
  | nil => rw [List.append_nil]
  | append_singleton between x ih =>
    have hbetween : turn method url (before ++ between) = turn method url before :=
      ih fun b r a hsplit hon => hquiet b r (a ++ [x]) (by simp [hsplit]) hon
    rw [← List.append_assoc]
    cases x with
    | push m u reply => rw [turn_push, hbetween]
    | send r =>
      rw [turn_send, hbetween, if_neg]
      rintro ⟨hon, hlt⟩
      rw [hquiet between r [] rfl hon] at hlt
      exact absurd hlt (by simp)

/-- Every answer whose turn has gone by was given. -/
theorem exists_send_of_lt_turn {i : Nat} (h : i < turn method url steps) :
    ∃ before r later, steps = before ++ .send r :: later ∧ r.On method url ∧
      queued method url before ≠ [] ∧ turn method url before = i := by
  induction steps using List.reverseRecOn with
  | nil => exact absurd h (by simp [turn, queued])
  | append_singleton steps x ih =>
    by_cases hearlier : i < turn method url steps
    · obtain ⟨before, r, later, rfl, hgiven⟩ := ih hearlier
      exact ⟨before, r, later ++ [x], by simp, hgiven⟩
    · cases x with
      | push m u reply =>
        rw [turn_push] at h
        exact absurd h hearlier
      | send r =>
        rw [turn_send] at h
        split at h
        · next hmoved =>
          refine ⟨steps, r, [], rfl, hmoved.1, fun hnone => ?_, by omega⟩
          rw [hnone] at hmoved
          exact absurd hmoved.2 (by simp)
        · exact absurd h hearlier

theorem fst_send_after (hon : r.On method url) (hqueued : queued method url before ≠ []) :
    (queued method url before)[turn method url before]? = some ((after before).send r).1 := by
  obtain ⟨rfl, rfl⟩ := hon
  cases hq : (after before).queue r.method r.url with
  | nil => exact absurd hq ((queue_after _ _ _).2 hqueued)
  | cons reply rest =>
    rw [send_of_queue_eq_cons hq]
    rw [queue_eq_drop] at hq
    rw [← List.head?_drop, hq]
    rfl

theorem upperAscii_eq_of_eqIgnoringCase {a b : String} (h : eqIgnoringCase a b = true) :
    upperAscii a = upperAscii b := by
  have hupper : ∀ t : String, upperAscii (lowerAscii t) = upperAscii t := by
    intro t
    simp only [upperAscii, lowerAscii, String.toList_ofList, List.map_map, Function.comp_def,
      Char.toUpper_toLower_eq_toUpper]
  rw [← hupper a, ← hupper b, show lowerAscii a = lowerAscii b from beq_iff_eq.mp h]

theorem requests_after (steps : List Step) : (after steps).requests = steps.filterMap Step.request? := by
  induction steps using List.reverseRecOn with
  | nil => rfl
  | append_singleton steps x ih =>
    rw [after_concat, List.filterMap_append, ← ih]
    cases x with
    | push m u reply => exact (List.append_nil _).symm
    | send r => exact requests_send _ r

/-- Whatever is done with a new script, and whatever other routes there are: the first request on a route, once an
answer is queued there, gets the first answer. Each later one gets the answer that the request before it on this route
got, if that was the last answer queued by then, and otherwise the answer queued next after it. So every answer that
does not wait any more was given, and the others wait in their order. Methods that differ in letter case belong to one
route; a request on a route without answers is refused and changes no route; the script keeps all requests in order. -/
theorem replies_in_turn :
    (∀ method url,
      (∀ before r, r.On method url → queued method url before ≠ [] →
        (queued method url before)[turn method url before]? = some ((after before).send r).1) ∧
      (∀ before, (∀ b r a, before = b ++ .send r :: a → r.On method url → queued method url b = []) →
        turn method url before = 0) ∧
      (∀ before r between, r.On method url → queued method url before ≠ [] →
        (∀ r', .send r' ∈ between → ¬ r'.On method url) →
        turn method url (before ++ .send r :: between) =
          if turn method url before + 1 = (queued method url before).length then turn method url before
          else turn method url before + 1) ∧
      ∀ steps, (after steps).queue method url = (queued method url steps).drop (turn method url steps) ∧
        ∀ i < turn method url steps, ∃ before r later, steps = before ++ .send r :: later ∧ r.On method url ∧
          queued method url before ≠ [] ∧ turn method url before = i) ∧
    (∀ (s : Script) m m' url reply, eqIgnoringCase m m' = true → s.push m url reply = s.push m' url reply) ∧
    (∀ before r, queued r.method r.url before = [] →
      ((after before).send r).1.answer =
        .error (.request ("connection refused: " ++ r.method ++ " " ++ r.url)) ∧
      ((after before).send r).2.routes = (after before).routes) ∧
    ∀ steps, (after steps).requests = steps.filterMap Step.request? := by
  refine ⟨fun method url => ⟨fun before r => fst_send_after, fun before hnone => ?_,
    fun before r between hon hqueued hbetween => ?_, fun steps => ⟨queue_eq_drop _ _ _, fun i =>
      exists_send_of_lt_turn⟩⟩, fun s m m' url reply hcase => ?_, fun before r hnone => ?_, requests_after⟩
  · have hstart : turn method url ([] ++ before) = turn method url [] := turn_append_of_quiet hnone
    rw [← List.nil_append before, hstart]
    rfl
  · have hquiet : turn method url ((before ++ [.send r]) ++ between) = turn method url (before ++ [.send r]) :=
      turn_append_of_quiet fun b r' a hsplit hon' => absurd hon' (hbetween r' (by simp [hsplit]))
    have hlt := turn_lt hqueued
    rw [List.append_cons, hquiet, turn_send]
    simp only [hon, true_and]
    split <;> split <;> omega
  · rw [push, push, upperAscii_eq_of_eqIgnoringCase hcase]
  · have hqueue : (after before).queue r.method r.url = [] := by
      rw [queue_eq_drop, hnone, List.drop_nil]
    rw [send_of_queue_eq_nil hqueue]
    exact ⟨rfl, rfl⟩

/-- An answer that is queued after the only one before it was given: the first one is given once more, because it was
the last one when it was given, and then the second one. -/
theorem replies_in_turn_late :
    let first : Reply := ⟨.ok ⟨200, "1"⟩, 0⟩
    let second : Reply := ⟨.error (.request "down"), 0⟩
    let r : Request := { method := "GET", url := "/a", headers := [], body := none }
    let steps := [.push "get" "/a" first, .send r, .push "Get" "/a" second]
    r.On "GET" "/a" ∧ queued "GET" "/a" steps = [first, second] ∧
      ((after steps).send r).1 = first ∧ ((after (steps ++ [.send r])).send r).1 = second := by
  intro first second r steps
  have hon : r.On "GET" "/a" := ⟨rfl, rfl⟩
  have hbefore : queued "GET" "/a" [.push "get" "/a" first] = [first] := rfl
  have hsteps : queued "GET" "/a" steps = [first, second] := rfl
  have hmore : queued "GET" "/a" (steps ++ [.send r]) = [first, second] := rfl
  obtain ⟨hroutes, -⟩ := replies_in_turn
  obtain ⟨hanswer, hfirst, hlater, -⟩ := hroutes "GET" "/a"
  have hstart : turn "GET" "/a" [.push "get" "/a" first] = 0 := by
    refine hfirst _ fun b r a hsplit _ => ?_
    match b, hsplit with
    | [], hsplit => exact absurd hsplit (by simp)
    | [_], hsplit => exact absurd hsplit (by simp)
  have hagain : turn "GET" "/a" steps = 0 := by
    have h := hlater [.push "get" "/a" first] r [.push "Get" "/a" second] hon (by simp [hbefore]) (by simp)
    rwa [hbefore, hstart] at h
  have hnext : turn "GET" "/a" (steps ++ [.send r]) = 1 := by
    have h := hlater steps r [] hon (by simp [hsteps]) (by simp)
    rwa [hsteps, hagain] at h
  refine ⟨hon, hsteps, ?_, ?_⟩
  · have h := hanswer steps r hon (by simp [hsteps])
    rw [hsteps, hagain] at h
    exact (Option.some.inj h).symm
  · have h := hanswer (steps ++ [.send r]) r hon (by simp [hmore])
    rw [hmore, hnext] at h
    exact (Option.some.inj h).symm

end Script

end Hypertemplate
