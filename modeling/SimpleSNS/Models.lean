import SimpleSNS.Async.DispatchGroup
import SimpleSNS.Database.FValidation
import SimpleSNS.Json.Cast

/-!
The app's data: users, posts, the pictures and errors that services answer with, and the
signed-in account. A picture stands for the bytes it is uploaded and downloaded as.
-/

namespace SimpleSNS

structure UIImage where
  bytes : List Nat
  deriving DecidableEq, Repr

/-- A picture without content has no JPEG data. -/
def UIImage.jpeg (img : UIImage) : Option (List Nat) := if img.bytes = [] then none else some img.bytes

structure Error where
  localizedDescription : String
  deriving DecidableEq, Repr

structure UserModel where
  userId : Option String := none
  firstName : Option String := none
  lastName : Option String := none
  emailId : Option String := none
  address : Option String := none
  phoneNumber : Option String := none
  password : Option String := none
  image : Option UIImage := none
  latitude : Option String := none
  longitude : Option String := none
  deriving DecidableEq, Repr

structure PostDetail where
  description : Option String := none
  imageRef : Option String := none
  like : Option Int := none
  timestamp : Option Rat := none
  userId : Option String := none
  postImage : Option UIImage := none
  postUserImage : Option UIImage := none
  name : Option String := none
  isLike : Option Bool := none
  deriving DecidableEq, Repr

structure UserPost where
  postId : Option String
  postDetail : PostDetail
  deriving DecidableEq, Repr

/-- What `getData` and `UIImage(data:)` make of a stored file. -/
inductive Download where
  | image (img : UIImage)
  | undecodable
  | failed (error : Error)
  deriving DecidableEq, Repr

/-- The picture a completion is given: nothing when the data does not decode or the download
fails. -/
def Download.image? : Download → Option UIImage
  | .image img => some img
  | .undecodable => none
  | .failed _ => none

/-- Auth hands out no empty uid. -/
structure Account where
  uid : String
  nonempty : uid ≠ ""
  deriving DecidableEq

abbrev Session := Option Account

def getCurrentUid (session : Session) : String := (session.map Account.uid).getD ""

@[simp] theorem getCurrentUid_some (account : Account) :
    getCurrentUid (some account) = account.uid := rfl

/-- `userReference.child(uid)`: the database raises for a string that is no path. -/
def userChild (uid : String) : Except Async.Trap Unit :=
  if FValidation.isValidPathString uid = true then .ok () else .error (.invalidPath uid)

@[simp] theorem userChild_valid {uid : String} (valid : FValidation.isValidPathString uid = true) :
    userChild uid = .ok () := if_pos valid

theorem userChild_error {uid : String} {t : Async.Trap} (raised : userChild uid = .error t) :
    t = .invalidPath uid := by
  unfold userChild at raised
  split at raised
  · cases raised
  · exact (Except.error.inj raised).symm

theorem userChild_ok {uid : String} {u : Unit} (named : userChild uid = .ok u) :
    FValidation.isValidPathString uid = true := by
  unfold userChild at named
  split at named
  · rename_i valid
    exact valid
  · cases named

/-! ### A user's record -/

/-- The five fields that sign-up and profile updates both write. -/
def profileFields (user : UserModel) : List (String × Option String) :=
  [("First Name", user.firstName), ("Last Name", user.lastName), ("Email Id", user.emailId),
    ("Address", user.address), ("Phone Number", user.phoneNumber)]

/-- A dictionary of optionals as the database receives it, each nil a null. -/
def nullable (fields : List (String × Option String)) : List (String × Json) :=
  fields.map fun field => (field.1, (field.2.map Json.str).getD .null)

theorem nullable_mem {fields : List (String × Option String)} {name : String} {value : Option String}
    (field : (name, value) ∈ fields) : (name, (value.map Json.str).getD .null) ∈ nullable fields :=
  List.mem_map.mpr ⟨_, field, rfl⟩

@[simp] theorem nullable_stored (value : Option String) :
    ((value.map Json.str).getD .null).nodeFrom = (value.map Json.str).getD .null := by
  cases value <;> simp

def coordinate (user : UserModel) : Json :=
  .obj (nullable [("Latitude", user.latitude), ("Longitude", user.longitude)])

/-- The model that a reader of `USER` builds from one record. -/
def UserModel.decode (userId : String) (record : Dict Json) : UserModel :=
  let coordinate := (record.get? "Coordinate").bind Json.stringDict?
  { userId := some userId
    firstName := (record.get? "First Name").bind Json.string?
    lastName := (record.get? "Last Name").bind Json.string?
    emailId := (record.get? "Email Id").bind Json.string?
    address := (record.get? "Address").bind Json.string?
    phoneNumber := (record.get? "Phone Number").bind Json.string?
    password := none
    image := none
    latitude := coordinate.bind (·.get? "Latitude")
    longitude := coordinate.bind (·.get? "Longitude") }

@[simp] theorem UserModel.decode_userId (userId : String) (record : Dict Json) :
    (UserModel.decode userId record).userId = some userId := rfl

/-- The model says of its user what the record says, field by field. -/
structure UserModel.Reads (userId : String) (record : Dict Json) (model : UserModel) : Prop where
  userId : model.userId = some userId
  firstName : model.firstName = (record.get? "First Name").bind Json.string?
  lastName : model.lastName = (record.get? "Last Name").bind Json.string?
  emailId : model.emailId = (record.get? "Email Id").bind Json.string?
  address : model.address = (record.get? "Address").bind Json.string?
  phoneNumber : model.phoneNumber = (record.get? "Phone Number").bind Json.string?
  password : model.password = none
  latitude : model.latitude =
    ((record.get? "Coordinate").bind Json.stringDict?).bind (·.get? "Latitude")
  longitude : model.longitude =
    ((record.get? "Coordinate").bind Json.stringDict?).bind (·.get? "Longitude")

theorem UserModel.decode_reads (userId : String) (record : Dict Json) (image : Option UIImage) :
    UserModel.Reads userId record { UserModel.decode userId record with image := image } :=
  ⟨rfl, rfl, rfl, rfl, rfl, rfl, rfl, rfl, rfl⟩

/-- Besides its picture, a model is what the record says. -/
theorem UserModel.Reads.eq {userId : String} {record : Dict Json} {model : UserModel}
    (reads : UserModel.Reads userId record model) :
    model = { UserModel.decode userId record with image := model.image } := by
  obtain ⟨_, _, _, _, _, _, _, _, _⟩ := reads
  cases model
  simp_all [UserModel.decode]

/-! ### Where things are stored -/

def userPath (uid : String) : List String := ["USER", uid]
def postPath (key : String) : List String := ["POST", key]
def userImageName (userId : String) : String := "UserImages/" ++ userId ++ ".png"
def postImageName (key : String) : String := "Posts/" ++ key ++ ".png"

theorem fileName_inj {folder ending name name' : String}
    (same : folder ++ name ++ ending = folder ++ name' ++ ending) : name = name' := by
  have characters := congrArg String.toList same
  simp only [String.toList_append, List.append_assoc] at characters
  have tail := List.append_cancel_left characters
  exact String.toList_inj.mp (List.append_cancel_right tail)

theorem userImageName_inj {userId userId' : String}
    (same : userImageName userId = userImageName userId') : userId = userId' := fileName_inj same

theorem postImageName_inj {key key' : String} (same : postImageName key = postImageName key') :
    key = key' := fileName_inj same

end SimpleSNS
