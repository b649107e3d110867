import Mathlib.Logic.Basic

/-!
# A session with CRIU

`criuSwrk` sends a request, answers the notify messages and waits for the process after the
final response.  The answer to a notify message takes the place of the request.
-/

namespace Runc.Criu

/-- `CriuReqType`, as far as the types are told apart. -/
inductive ReqType
  | dump
  | restore
  | preDump
  | notify
  | featureCheck
  | other (n : Nat)
deriving DecidableEq

structure Resp where
  type : ReqType
  success : Bool
  crErrno : Int
deriving DecidableEq

variable {ε : Type}

inductive SwrkError (ε : Type)
  | failed (err : ε)
  /-- `unexpected EOF`. -/
  | unexpectedEOF
  /-- `buffer is too small`. -/
  | tooSmall
  /-- `criu failed: type %s errno %d`. -/
  | criuFailed (type : ReqType) (crErrno : Int)
  /-- `unable to parse the response %s`. -/
  | unparsable (resp : Resp)
  /-- `criu failed: %s`, with the state of the process. -/
  | criuExit
deriving DecidableEq

inductive Turn (ε : Type)
  | readFailed (err : ε)
  | eof
  | full
  | garbled (err : ε)
  | response (resp : Resp) (notifications write : Except ε Unit)

def loop (req : ReqType) : List (Turn ε) → Except (SwrkError ε) ReqType
  | [] => .error .unexpectedEOF
  | .readFailed err :: _ => .error (.failed err)
  | .eof :: _ => .error .unexpectedEOF
  | .full :: _ => .error .tooSmall
  | .garbled err :: _ => .error (.failed err)
  | .response resp notifications write :: rest =>
      if !resp.success then .error (.criuFailed resp.type resp.crErrno)
      else
        match resp.type with
        | .featureCheck | .restore | .dump | .preDump => .ok req
        | .notify =>
            match notifications, write with
            | .ok (), .ok () => loop .notify rest
            | .error err, _ => .error (.failed err)
            | .ok (), .error err => .error (.failed err)
        | .other _ => .error (.unparsable resp)

/-- How the request is sent, the turns, and what `Wait` gives. -/
def criuSwrk (start : Except ε Unit) (req : ReqType) (turns : List (Turn ε))
    (wait : Except ε Bool) : Except (SwrkError ε) Unit :=
  match start with
  | .error err => .error (.failed err)
  | .ok () =>
      match loop req turns with
      | .error err => .error err
      | .ok req =>
          match wait with
          | .error err => .error (.failed err)
          | .ok success => if !success && req ≠ .preDump then .error .criuExit else .ok ()

def Turn.Answered (t : Turn ε) : Prop :=
  ∃ crErrno, t = .response ⟨.notify, true, crErrno⟩ (.ok ()) (.ok ())

def ReqType.Final (t : ReqType) : Prop :=
  t = .featureCheck ∨ t = .restore ∨ t = .dump ∨ t = .preDump

theorem loop_eq_ok {req req' : ReqType} {turns : List (Turn ε)} (h : loop req turns = .ok req') :
    req' = req ∨ req' = .notify := by
  induction turns generalizing req with
  | nil => cases h
  | cons t turns ih =>
    cases t with
    | readFailed err => cases h
    | eof => cases h
    | full => cases h
    | garbled err => cases h
    | response resp notifications write =>
      obtain ⟨type, success, crErrno⟩ := resp
      cases success with
      | false => cases h
      | true =>
        cases type with
        | notify =>
          cases notifications <;> cases write <;> first | cases h | exact .inr ((ih h).elim id id)
        | other n => cases h
        | _ =>
          cases h
          exact .inl rfl

theorem loop_answered {notifies : List (Turn ε)} (hnotifies : ∀ t ∈ notifies, t.Answered)
    {final : ReqType} (hfinal : final.Final) (req : ReqType) (crErrno : Int)
    (notifications write : Except ε Unit) (rest : List (Turn ε)) :
    loop req (notifies ++ .response ⟨final, true, crErrno⟩ notifications write :: rest) =
      .ok (if notifies = [] then req else .notify) := by
  induction notifies generalizing req with
  | nil => rcases hfinal with rfl | rfl | rfl | rfl <;> rfl
  | cons t notifies ih =>
    obtain ⟨⟨_, rfl⟩, hrest⟩ := List.forall_mem_cons.mp hnotifies
    refine (ih hrest .notify).trans ?_
    rw [if_neg (List.cons_ne_nil _ _), ite_self]

/-- The verdict. -/
theorem criuSwrk_verdict_iff (req : ReqType) (notifies : List (Turn ε))
    (hnotifies : ∀ t ∈ notifies, t.Answered) (final : ReqType) (hfinal : final.Final)
    (crErrno : Int) (notifications write : Except ε Unit) (rest : List (Turn ε)) (exit : Bool) :
    (req ≠ .preDump → ∀ start turns wait, criuSwrk start req turns wait = .ok () →
      wait = (.ok true : Except ε Bool)) ∧
    ((req = .preDump → final = .preDump →
      criuSwrk (.ok ()) req
        (notifies ++ .response ⟨final, true, crErrno⟩ notifications write :: rest) (.ok exit) =
          .ok ()) ↔
      (req = .preDump → final = .preDump → notifies = [] ∨ exit = true)) := by
  constructor
  · intro hreq start turns wait h
    unfold criuSwrk at h
    cases start with
    | error err => cases h
    | ok _ =>
      cases hloop : loop req turns with
      | error err =>
        rw [hloop] at h
        cases h
      | ok req' =>
        have hne : req' ≠ .preDump := by
          rcases loop_eq_ok hloop with rfl | rfl
          · exact hreq
          · decide
        rw [hloop] at h
        cases wait with
        | error err => cases h
        | ok success =>
          cases success with
          | true => rfl
          | false => simp [hne] at h
  · refine forall_congr' fun hreq => forall_congr' fun _ => ?_
    rw [criuSwrk, loop_answered hnotifies hfinal, hreq]
    by_cases hnone : notifies = [] <;> cases exit <;> simp [hnone]

theorem criuSwrk_preDump :
    criuSwrk (.ok ()) .preDump [.response ⟨.preDump, true, 0⟩ (.ok ()) (.ok ())]
      (.ok false : Except Unit Bool) = .ok () :=
  (criuSwrk_verdict_iff .preDump [] (List.forall_mem_nil _) .preDump (.inr (.inr (.inr rfl))) 0
    (.ok ()) (.ok ()) [] false).2.mpr (fun _ _ => .inl rfl) rfl rfl

theorem criuSwrk_preDump_notified :
    criuSwrk (.ok ()) .preDump
      [.response ⟨.notify, true, 0⟩ (.ok ()) (.ok ()),
        .response ⟨.preDump, true, 0⟩ (.ok ()) (.ok ())]
      (.ok false : Except Unit Bool) = .error .criuExit :=
  rfl

end Runc.Criu
