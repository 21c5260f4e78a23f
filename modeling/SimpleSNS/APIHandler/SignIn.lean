import SimpleSNS.Async.Program
import SimpleSNS.Models

/-!
`signIn`, `forgotPassword` and `fetchCurrentUserImage`. The completion of `signIn` takes a user that is
there, so its call for a refused sign-in is commented out.
-/

namespace SimpleSNS
open Async

namespace SignIn

structure Input where
  emailId : String
  passwd : String
  deriving DecidableEq

inductive Request where
  | signIn (emailId passwd : String)
  deriving DecidableEq

abbrev State := Frame Unit Request Empty (String × Option Error)

def start (_ : Session) (input : Input) : Except Trap State :=
  .ok { vars := (), sent := [.signIn input.emailId input.passwd] }

/-- Auth answers with a result and an error; a user stands for the uid. -/
def onResult (result : Option String) : Option Error → State
  | none =>
    match result with
    | none => { vars := () }
    | some user => { vars := (), reported := [(user, none)] }
  | some _ => { vars := () }

end SignIn

abbrev signIn : Program Session where
  Input := SignIn.Input
  Vars := Unit
  Request := SignIn.Request
  Answer := fun _ => Option String × Option Error
  Block := Empty
  Report := String × Option Error
  start := SignIn.start
  reply := fun _ _ _ answer => .ok (SignIn.onResult answer.1 answer.2)
  block := fun _ _ b => nomatch b

namespace ForgotPassword

inductive Request where
  | sendPasswordReset (emailId : String)
  deriving DecidableEq

abbrev State := Frame Unit Request Empty (Option Error)

def start (_ : Session) (emailId : String) : Except Trap State :=
  .ok { vars := (), sent := [.sendPasswordReset emailId] }

def onReset : Option Error → State
  | none => { vars := (), reported := [none] }
  | some error => { vars := (), reported := [some error] }

end ForgotPassword

abbrev forgotPassword : Program Session where
  Input := String
  Vars := Unit
  Request := ForgotPassword.Request
  Answer := fun _ => Option Error
  Block := Empty
  Report := Option Error
  start := ForgotPassword.start
  reply := fun _ _ _ error => .ok (ForgotPassword.onReset error)
  block := fun _ _ b => nomatch b

namespace FetchCurrentUserImage

inductive Request where
  | userImage (userId : String)
  deriving DecidableEq

abbrev State := Frame Unit Request Empty (Option UIImage × Option Error)

def start (session : Session) (_ : Unit) : Except Trap State :=
  .ok { vars := (), sent := [.userImage (getCurrentUid session)] }

/-- Data that does not decode is passed on as nil, without an error. -/
def onUserImage : Download → State
  | .image img => { vars := (), reported := [(some img, none)] }
  | .undecodable => { vars := (), reported := [(none, none)] }
  | .failed error => { vars := (), reported := [(none, some error)] }

end FetchCurrentUserImage

abbrev fetchCurrentUserImage : Program Session where
  Input := Unit
  Vars := Unit
  Request := FetchCurrentUserImage.Request
  Answer := fun _ => Download
  Block := Empty
  Report := Option UIImage × Option Error
  start := FetchCurrentUserImage.start
  reply := fun _ _ _ img => .ok (FetchCurrentUserImage.onUserImage img)
  block := fun _ _ b => nomatch b

end SimpleSNS
