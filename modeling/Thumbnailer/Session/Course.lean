import Thumbnailer.Log
import Thumbnailer.Session.Progress
import Thumbnailer.Text.Quoted

/-!
# Courses of sessions

A part of a session comes to a value or breaks the session off, and something is seen of it until then.
-/

namespace Thumbnailer

/-- What can be seen of a session from outside while it runs. -/
inductive Event where
  /-- The start of a program was attempted; its standard output is read or thrown away. -/
  | launch (args : List String) (piped : Bool)
  | log (record : Record)
  /-- The callback was called. -/
  | report (progress : Progress)
deriving DecidableEq, Repr

/-- Why a session broke off without an outcome. -/
inductive Escape where
  /-- A record cannot be made, because an attribute has the name of one of its own fields. -/
  | reserved (name : String)
  /-- The system does not take the arguments of the program. -/
  | nullCharacter
  /-- The callback ended with more than an error. -/
  | callback (cause : String)
deriving DecidableEq, Repr

def Escape.message : Escape → String
  | .reserved name => Text.quoted s!"Attempt to overwrite {Text.quoted name} in LogRecord"
  | .nullCharacter => "embedded null byte"
  | .callback cause => cause

instance decEqExcept {ε α : Type} [DecidableEq ε] [DecidableEq α] : DecidableEq (Except ε α)
  | .error e, .error e' => decidable_of_iff (e = e') ⟨congrArg _, Except.error.inj⟩
  | .ok a, .ok a' => decidable_of_iff (a = a') ⟨congrArg _, Except.ok.inj⟩
  | .error _, .ok _ => .isFalse nofun
  | .ok _, .error _ => .isFalse nofun

structure Course (α : Type) where
  result : Except Escape α
  events : List Event := []
deriving DecidableEq, Repr

namespace Course

variable {α β γ : Type}

def pure (a : α) : Course α := ⟨.ok a, []⟩

def bind (c : Course α) (f : α → Course β) : Course β :=
  match c.result with
  | .error e => ⟨.error e, c.events⟩
  | .ok a => ⟨(f a).result, c.events ++ (f a).events⟩

instance : Monad Course where
  pure := pure
  bind := bind

def seen (e : Event) : Course Unit := ⟨.ok (), [e]⟩

def broken (e : Escape) : Course α := ⟨.error e, []⟩

/-! ## Results and events -/

@[ext] theorem ext {c d : Course α} (hresult : c.result = d.result) (hevents : c.events = d.events) : c = d := by
  cases c
  cases d
  cases hresult
  cases hevents
  rfl

@[simp] theorem pure_result (a : α) : (Pure.pure a : Course α).result = .ok a := rfl

@[simp] theorem pure_events (a : α) : (Pure.pure a : Course α).events = [] := rfl

@[simp] theorem seen_result (e : Event) : (seen e).result = .ok () := rfl

@[simp] theorem seen_events (e : Event) : (seen e).events = [e] := rfl

@[simp] theorem broken_result (e : Escape) : (broken e : Course α).result = .error e := rfl

@[simp] theorem broken_events (e : Escape) : (broken e : Course α).events = [] := rfl

theorem bind_of_ok {c : Course α} {a : α} (h : c.result = .ok a) (f : α → Course β) :
    (c >>= f) = ⟨(f a).result, c.events ++ (f a).events⟩ := by
  show bind c f = _
  rw [bind, h]

theorem bind_of_error {c : Course α} {e : Escape} (h : c.result = .error e) (f : α → Course β) :
    (c >>= f) = ⟨.error e, c.events⟩ := by
  show bind c f = _
  rw [bind, h]

@[simp] theorem ok_bind (a : α) (events : List Event) (f : α → Course β) :
    (⟨.ok a, events⟩ >>= f) = ⟨(f a).result, events ++ (f a).events⟩ := rfl

@[simp] theorem broken_bind (e : Escape) (f : α → Course β) : (broken e >>= f) = broken e := rfl

theorem bind_assoc (c : Course α) (f : α → Course β) (g : β → Course γ) :
    c >>= f >>= g = c >>= fun a => f a >>= g := by
  cases hc : c.result with
  | error e => simp only [bind_of_error hc]; rfl
  | ok a =>
    cases hf : (f a).result with
    | error e => simp only [bind_of_ok hc, bind_of_error hf, hf]; rfl
    | ok b => simp [bind_of_ok hc, bind_of_ok hf, hf, bind_of_ok, List.append_assoc]

instance : LawfulMonad Course := LawfulMonad.mk' Course
  (fun c => by cases hc : c.result <;> simp [Functor.map, bind, hc, pure, Course.ext_iff])
  (fun _ _ => rfl)
  bind_assoc

end Course

end Thumbnailer
