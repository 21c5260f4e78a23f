import SimpleSNS.APIHandler.Profiles
import SimpleSNS.Async.Machine

/-!
`EditProfileViewController`. The screen opens with an empty model and the default picture; the
record and the picture of the account replace them when they arrive. A typed text is on screen at
once and reaches the model when the editing of its field ends.
-/

namespace SimpleSNS
open Async

inductive EditProfileBlock where
  | reloadData
  | showImage (image : Option UIImage)
  deriving DecidableEq

/-- `texts` are the texts of the four fields on screen and `issued` the saves sent off.
`userPending` and `imagePending` say which completion has not run. The rest is history: the last
text typed in each field, the fields typed in since their editing last ended, the last picture
picked, and whether the stored picture has been on screen. -/
structure EditProfileViewController where
  userInfoArray : Option UserModel := some {}
  image : Option UIImage
  texts : Nat → String := fun _ => ""
  queue : List EditProfileBlock := []
  issued : List UpdateUserInformation.Input := []
  userPending : Bool := true
  imagePending : Bool := true
  typed : Nat → Option String := fun _ => none
  editing : Nat → Bool := fun _ => false
  picked : Option UIImage := none
  imageShown : Bool := false

namespace EditProfileViewController

inductive Event where
  | fetchUser (userData : Option UserModel)
  | fetchUserProfileImg (img : Download)
  | editingChanged (tag : Nat) (text : String)
  | textFieldDidEndEditing (tag : Nat)
  | imagePickerController (image : UIImage)
  | saveBarBtn
  | main

/-- The text that the field with this tag shows of a model. -/
def field (userInfo : UserModel) (tag : Nat) : Option String :=
  match tag with
  | 0 => userInfo.firstName
  | 1 => userInfo.lastName
  | 2 => userInfo.address
  | 3 => userInfo.phoneNumber
  | _ => none

def textFieldDidEndEditing (userInfo : UserModel) (tag : Nat) (text : Option String) : UserModel :=
  match tag with
  | 0 => { userInfo with firstName := text }
  | 1 => { userInfo with lastName := text }
  | 2 => { userInfo with address := text }
  | 3 => { userInfo with phoneNumber := text }
  | _ => userInfo

/-- The completion that `fetchUser` hands to `fetchCurrentUser`. -/
def fetchUser (v : EditProfileViewController) (userData : Option UserModel) :
    EditProfileViewController :=
  { v with userInfoArray := userData, queue := v.queue ++ [.reloadData], userPending := false }

/-- The completion that `fetchUserProfileImg` hands to `fetchCurrentUserImage`: data that does not
decode is passed on as nil without an error. -/
def fetchUserProfileImg (v : EditProfileViewController) : Download → EditProfileViewController
  | .image img => { v with queue := v.queue ++ [.showImage (some img)], imagePending := false }
  | .undecodable => { v with queue := v.queue ++ [.showImage none], imagePending := false }
  | .failed _ => { v with imagePending := false }

/-- `UIImage(named: "")` is nil, so a save without a picture on screen stops. -/
def saveBarBtn (v : EditProfileViewController) : Except Trap (Option UpdateUserInformation.Input) :=
  match v.userInfoArray with
  | some updateObj =>
    if updateObj.firstName.isSome ∧ updateObj.lastName.isSome ∧ updateObj.address.isSome ∧
        updateObj.phoneNumber.isSome
    then do
      let image ← unwrap v.image
      return some ⟨updateObj, image⟩
    else .ok none
  | none => .ok none

/-- A reload sets the text of each field, and a nil as the empty text. -/
def runBlock (v : EditProfileViewController) : EditProfileViewController :=
  match v.queue with
  | [] => v
  | .reloadData :: rest => { v with
    queue := rest
    texts := fun tag => (v.userInfoArray.bind (field · tag)).getD "" }
  | .showImage image :: rest => { v with
    queue := rest
    image := image
    imageShown := image.isSome }

def react (v : EditProfileViewController) : Event → Except Trap EditProfileViewController
  | .fetchUser userData => .ok (v.fetchUser userData)
  | .fetchUserProfileImg img => .ok (v.fetchUserProfileImg img)
  | .editingChanged tag text => .ok { v with
    texts := Function.update v.texts tag text
    typed := Function.update v.typed tag (some text)
    editing := Function.update v.editing tag true }
  | .textFieldDidEndEditing tag => .ok { v with
    userInfoArray := v.userInfoArray.map (textFieldDidEndEditing · tag (some (v.texts tag)))
    editing := Function.update v.editing tag false }
  | .imagePickerController image => .ok { v with image := some image, picked := some image }
  | .saveBarBtn => do
    let input ← v.saveBarBtn
    return { v with issued := v.issued ++ input.toList }
  | .main => .ok v.runBlock

/-- Each completion runs once, with what is stored or without. -/
def Enabled (stored : UserModel) (storedImage : Option UIImage) (v : EditProfileViewController) :
    Event → Prop
  | .fetchUser userData => v.userPending = true ∧ (userData = none ∨ userData = some stored)
  | .fetchUserProfileImg img =>
    v.imagePending = true ∧ ∀ image, img = .image image → storedImage = some image
  | .editingChanged tag _ => tag < 4
  | .textFieldDidEndEditing tag => tag < 4
  | .main => v.queue ≠ []
  | _ => True

def machine (stored : UserModel) (storedImage : Option UIImage) :
    Machine EditProfileViewController Event := ⟨Enabled stored storedImage, react⟩

/-! ### What a save must write -/

/-- The last text typed in the field, or the stored value. -/
def expected (stored : UserModel) (v : EditProfileViewController) (tag : Nat) : Option String :=
  (v.typed tag).or (field stored tag)

/-- No edit is lost and no value invented, in the model and under each key of the update. -/
structure Right (stored : UserModel) (storedImage : Option UIImage) (v : EditProfileViewController)
    (input : UpdateUserInformation.Input) : Prop where
  fields : ∀ tag < 4, field input.updatedUserInfo tag = v.expected stored tag
  emailId : input.updatedUserInfo.emailId = stored.emailId
  image : some input.updateProfileImg = v.picked.or storedImage
  written : profileFields input.updatedUserInfo =
    [("First Name", v.expected stored 0), ("Last Name", v.expected stored 1),
      ("Email Id", stored.emailId), ("Address", v.expected stored 2),
      ("Phone Number", v.expected stored 3)]

/-- The record arrives before the editing of any field has ended with another text; then editing
ends with the last typed or the stored text on screen; the stored picture does not replace a
picked one. -/
def Careful (stored : UserModel) (v : EditProfileViewController) : Event → Prop
  | .fetchUser (some _) => ∀ tag < 4, v.editing tag = false → field stored tag = v.expected stored tag
  | .textFieldDidEndEditing tag => v.userPending = false → v.userInfoArray.isSome →
    some (v.texts tag) = v.expected stored tag
  | .main => ∀ image rest, v.queue = .showImage image :: rest → ∀ picked, v.picked = some picked →
    image = some picked
  | _ => True

/-- The record is there, a field that is still being edited shows what the model has, and a picture has
been picked or the stored one is on screen. -/
structure Ready (storedImage : Option UIImage) (v : EditProfileViewController) : Prop where
  arrived : v.userPending = false
  ended : ∀ tag < 4, v.editing tag = true → v.typed tag = v.userInfoArray.bind (field · tag)
  shown : v.picked = none → v.imageShown = false → v.image = storedImage

/-- The model carries what a save must write, except in the fields that are being edited. -/
structure ModelAligned (stored : UserModel) (v : EditProfileViewController) : Prop where
  typed : ∀ tag, v.editing tag = true → (v.typed tag).isSome
  early : v.userPending = true → ∀ userInfo, v.userInfoArray = some userInfo → userInfo.emailId = none
  emailId : v.userPending = false → ∀ userInfo, v.userInfoArray = some userInfo →
    userInfo.emailId = stored.emailId
  fields : v.userPending = false → ∀ userInfo, v.userInfoArray = some userInfo → ∀ tag < 4,
    v.editing tag = false → field userInfo tag = v.expected stored tag

/-- The picture on screen is the last one picked, or the stored one once it has been shown. -/
structure ImageAligned (storedImage : Option UIImage) (v : EditProfileViewController) : Prop where
  queued : ∀ image, .showImage (some image) ∈ v.queue → storedImage = some image
  picked : ∀ image, v.picked = some image → v.image = some image
  shown : v.picked = none → v.imageShown = true → v.image = storedImage

structure Aligned (stored : UserModel) (storedImage : Option UIImage) (v : EditProfileViewController) :
    Prop where
  model : v.ModelAligned stored
  image : v.ImageAligned storedImage

variable {stored : UserModel} {storedImage : Option UIImage} {v v' : EditProfileViewController}
  {ev : Event}

/-! ### The four fields -/

theorem field_ended {userInfo : UserModel} {tag : Nat} {text : Option String} (known : tag < 4) :
    field (textFieldDidEndEditing userInfo tag text) tag = text := by
  match tag, known with
  | 0, _ | 1, _ | 2, _ | 3, _ => rfl

theorem field_other {userInfo : UserModel} {tag tag' : Nat} {text : Option String}
    (other : tag' ≠ tag) : field (textFieldDidEndEditing userInfo tag text) tag' = field userInfo tag' := by
  unfold textFieldDidEndEditing
  split
  case h_5 => rfl
  all_goals
    unfold field
    split
    all_goals first | rfl | omega

theorem profileFields_field (userInfo : UserModel) : profileFields userInfo =
    [("First Name", field userInfo 0), ("Last Name", field userInfo 1), ("Email Id", userInfo.emailId),
      ("Address", field userInfo 2), ("Phone Number", field userInfo 3)] := rfl

theorem ended_emailId (userInfo : UserModel) (tag : Nat) (text : Option String) :
    (textFieldDidEndEditing userInfo tag text).emailId = userInfo.emailId := by
  unfold textFieldDidEndEditing
  split
  all_goals rfl

/-! ### The model -/

theorem fetchUser_model (userData : Option UserModel) (known : userData = none ∨ userData = some stored)
    (aligned : v.ModelAligned stored) : (v.fetchUser userData).ModelAligned stored ↔
      ∀ userInfo, userData = some userInfo → ∀ tag < 4, v.editing tag = false →
        field stored tag = v.expected stored tag := by
  rcases known with rfl | rfl
  · refine iff_of_true ⟨aligned.typed, nofun, ?_, ?_⟩
      fun _ missing => absurd missing.symm (Option.some_ne_none _)
    · intro _ userInfo missing
      cases missing
    · intro _ userInfo missing
      cases missing
  · constructor
    · intro aligned' userInfo _ tag bound ended
      exact aligned'.fields rfl stored rfl tag bound ended
    · intro unedited
      refine ⟨aligned.typed, nofun, ?_, ?_⟩
      · intro _ userInfo same
        cases same
        rfl
      · intro _ userInfo same tag bound ended
        cases same
        exact unedited stored rfl tag bound ended

theorem editingChanged_model (tag : Nat) (text : String) (aligned : v.ModelAligned stored)
    (ran : v.react (.editingChanged tag text) = .ok v') : v'.ModelAligned stored := by
  obtain rfl := Except.ok.inj ran
  refine ⟨?_, aligned.early, aligned.emailId, ?_⟩
  · intro tag' edited
    by_cases same : tag' = tag
    · subst same
      show (Function.update v.typed tag' (some text) tag').isSome
      rw [Function.update_self]
      rfl
    · change Function.update v.editing tag true tag' = true at edited
      show (Function.update v.typed tag (some text) tag').isSome
      rw [Function.update_of_ne same] at edited ⊢
      exact aligned.typed tag' edited
  · intro arrived userInfo model tag' bound ended
    have other : tag' ≠ tag := by
      rintro rfl
      change Function.update v.editing tag' true tag' = false at ended
      rw [Function.update_self] at ended
      cases ended
    change Function.update v.editing tag true tag' = false at ended
    rw [Function.update_of_ne other] at ended
    have kept := aligned.fields arrived userInfo model tag' bound ended
    show field userInfo tag' = (Function.update v.typed tag (some text) tag').or (field stored tag')
    rw [Function.update_of_ne other]
    exact kept

theorem textFieldDidEndEditing_model {tag : Nat} (bound : tag < 4) (aligned : v.ModelAligned stored)
    (ran : v.react (.textFieldDidEndEditing tag) = .ok v') : v'.ModelAligned stored ↔
      (v.userPending = false → v.userInfoArray.isSome → some (v.texts tag) = v.expected stored tag) := by
  obtain rfl := Except.ok.inj ran
  constructor
  · intro aligned' arrived loaded
    obtain ⟨userInfo, model⟩ := Option.isSome_iff_exists.mp loaded
    have written := aligned'.fields arrived _ (congrArg (Option.map _) model) tag bound
      (Function.update_self _ _ _)
    rw [field_ended bound] at written
    exact written
  · intro shown
    refine ⟨?_, ?_, ?_, ?_⟩
    · intro tag' edited
      apply aligned.typed tag'
      by_cases same : tag' = tag
      · subst same
        change Function.update v.editing tag' false tag' = true at edited
        rw [Function.update_self] at edited
        cases edited
      · change Function.update v.editing tag false tag' = true at edited
        rwa [Function.update_of_ne same] at edited
    · intro early userInfo' model'
      obtain ⟨userInfo, model, rfl⟩ := Option.map_eq_some_iff.mp model'
      rw [ended_emailId]
      exact aligned.early early userInfo model
    · intro arrived userInfo' model'
      obtain ⟨userInfo, model, rfl⟩ := Option.map_eq_some_iff.mp model'
      rw [ended_emailId]
      exact aligned.emailId arrived userInfo model
    · intro arrived userInfo' model' tag' bound' ended
      obtain ⟨userInfo, model, rfl⟩ := Option.map_eq_some_iff.mp model'
      by_cases same : tag' = tag
      · subst same
        rw [field_ended bound']
        exact shown arrived (Option.isSome_iff_exists.mpr ⟨userInfo, model⟩)
      · change Function.update v.editing tag false tag' = false at ended
        rw [Function.update_of_ne same] at ended
        rw [field_other same]
        exact aligned.fields arrived userInfo model tag' bound' ended

/-! ### The picture -/

theorem queued_append {xs : List EditProfileBlock} {b : EditProfileBlock}
    (queued : ∀ image, .showImage (some image) ∈ xs → storedImage = some image)
    (added : ∀ image, b = .showImage (some image) → storedImage = some image) (image : UIImage)
    (member : .showImage (some image) ∈ xs ++ [b]) : storedImage = some image := by
  rcases List.mem_append.mp member with old | new
  · exact queued image old
  · exact added image (List.mem_singleton.mp new).symm

theorem fetchUserProfileImg_image {img : Download}
    (known : ∀ image, img = .image image → storedImage = some image)
    (aligned : v.ImageAligned storedImage) : (v.fetchUserProfileImg img).ImageAligned storedImage := by
  cases img with
  | image img =>
    refine ⟨queued_append aligned.queued ?_, aligned.picked, aligned.shown⟩
    intro image same
    cases same
    exact known _ rfl
  | undecodable => exact ⟨queued_append aligned.queued nofun, aligned.picked, aligned.shown⟩
  | failed error => exact ⟨aligned.queued, aligned.picked, aligned.shown⟩

theorem showImage_image {image : Option UIImage} {rest : List EditProfileBlock}
    (next : v.queue = .showImage image :: rest) (aligned : v.ImageAligned storedImage) :
    v.runBlock.ImageAligned storedImage ↔ ∀ picked, v.picked = some picked → image = some picked := by
  have ran : v.runBlock = { v with queue := rest, image := image, imageShown := image.isSome } := by
    unfold runBlock
    rw [next]
  rw [ran]
  constructor
  · intro aligned'
    exact aligned'.picked
  · intro kept
    refine ⟨?_, kept, ?_⟩
    · intro image' member
      apply aligned.queued image'
      rw [next]
      exact List.mem_cons_of_mem _ member
    · intro _ shown
      obtain ⟨img, rfl⟩ := Option.isSome_iff_exists.mp shown
      exact (aligned.queued img (next ▸ List.mem_cons_self)).symm

/-! ### Runs -/

theorem runBlock_aligned (aligned : v.Aligned stored storedImage) :
    v.runBlock.Aligned stored storedImage ↔ v.Careful stored .main := by
  cases next : v.queue with
  | nil =>
    have ran : v.runBlock = v := by
      unfold runBlock
      rw [next]
    rw [ran]
    refine iff_of_true aligned ?_
    intro image rest shown
    rw [next] at shown
    cases shown
  | cons b rest =>
    cases b with
    | reloadData =>
      have ran : v.runBlock = { v with
          queue := rest
          texts := fun tag => (v.userInfoArray.bind (field · tag)).getD "" } := by
        unfold runBlock
        rw [next]
      have model := aligned.model
      have image := aligned.image
      rw [ran]
      refine iff_of_true ⟨⟨model.typed, model.early, model.emailId, model.fields⟩,
        ⟨?_, image.picked, image.shown⟩⟩ ?_
      · intro image' member
        apply image.queued image'
        rw [next]
        exact List.mem_cons_of_mem _ member
      · intro image' rest' shown
        rw [next] at shown
        cases shown
    | showImage image =>
      have kept := showImage_image next aligned.image
      have ran : v.runBlock = { v with queue := rest, image := image, imageShown := image.isSome } := by
        unfold runBlock
        rw [next]
      have model := aligned.model
      have model' : v.runBlock.ModelAligned stored := by
        rw [ran]
        exact ⟨model.typed, model.early, model.emailId, model.fields⟩
      constructor
      · intro aligned' image' rest' shown
        rw [next] at shown
        cases shown
        exact kept.mp aligned'.image
      · intro careful
        exact ⟨model', kept.mpr (careful image rest next)⟩

/-- Exactly the careful events keep the screen aligned. -/
theorem react_aligned (aligned : v.Aligned stored storedImage)
    (possible : v.Enabled stored storedImage ev) (ran : v.react ev = .ok v') :
    v'.Aligned stored storedImage ↔ v.Careful stored ev := by
  have model := aligned.model
  have image := aligned.image
  cases ev with
  | fetchUser userData =>
    obtain rfl := Except.ok.inj ran
    have kept := fetchUser_model userData possible.2 model
    have image' : (v.fetchUser userData).ImageAligned storedImage :=
      ⟨queued_append image.queued nofun, image.picked, image.shown⟩
    have aligned_iff : (v.fetchUser userData).Aligned stored storedImage ↔
        (v.fetchUser userData).ModelAligned stored := ⟨Aligned.model, fun model' => ⟨model', image'⟩⟩
    refine aligned_iff.trans (kept.trans ?_)
    cases userData with
    | none => exact iff_of_true (fun _ missing => absurd missing.symm (Option.some_ne_none _)) trivial
    | some userInfo => exact ⟨fun all => all userInfo rfl, fun all _ _ => all⟩
  | fetchUserProfileImg img =>
    obtain rfl := Except.ok.inj ran
    refine iff_of_true ⟨?_, fetchUserProfileImg_image possible.2 image⟩ trivial
    cases img with
    | image img => exact ⟨model.typed, model.early, model.emailId, model.fields⟩
    | undecodable => exact ⟨model.typed, model.early, model.emailId, model.fields⟩
    | failed error => exact ⟨model.typed, model.early, model.emailId, model.fields⟩
  | editingChanged tag text =>
    refine iff_of_true ⟨editingChanged_model tag text model ran, ?_⟩ trivial
    obtain rfl := Except.ok.inj ran
    exact ⟨image.queued, image.picked, image.shown⟩
  | textFieldDidEndEditing tag =>
    have kept := textFieldDidEndEditing_model possible model ran
    obtain rfl := Except.ok.inj ran
    refine Iff.trans ⟨Aligned.model, fun model' => ⟨model', ?_⟩⟩ kept
    exact ⟨image.queued, image.picked, image.shown⟩
  | imagePickerController img =>
    obtain rfl := Except.ok.inj ran
    refine iff_of_true ⟨⟨model.typed, model.early, model.emailId, model.fields⟩,
      ⟨image.queued, fun _ same => same, nofun⟩⟩ trivial
  | saveBarBtn =>
    obtain ⟨input, _, same⟩ := bind_ok.mp ran
    obtain rfl := Except.ok.inj same
    exact iff_of_true ⟨⟨model.typed, model.early, model.emailId, model.fields⟩,
      ⟨image.queued, image.picked, image.shown⟩⟩ trivial
  | main =>
    obtain rfl := Except.ok.inj ran
    exact runBlock_aligned aligned

theorem run_aligned {initial : Option UIImage}
    (run : (machine stored storedImage).Run (Careful stored) { image := initial } v) :
    v.Aligned stored storedImage := by
  refine run.invariant (I := Aligned stored storedImage) ?_ ?_
  · refine ⟨⟨nofun, ?_, nofun, nofun⟩, ⟨fun _ member => absurd member List.not_mem_nil, nofun, nofun⟩⟩
    intro _ userInfo model
    cases model
    rfl
  · intro v ev v' aligned possible careful ran
    exact (react_aligned aligned possible ran).mpr careful

/-- What Save sends off is what the check of the screen lets through, with the picture on screen. -/
theorem saveBarBtn_issued {input : UpdateUserInformation.Input}
    (issued : v.saveBarBtn = .ok (some input)) :
    v.userInfoArray = some input.updatedUserInfo ∧ v.image = some input.updateProfileImg ∧
      SimpleSNS.saveBarBtn v.userInfoArray input.updateProfileImg = some input := by
  unfold saveBarBtn at issued
  cases model : v.userInfoArray with
  | none =>
    rw [model] at issued
    cases issued
  | some updateObj =>
    rw [model] at issued
    dsimp only at issued
    split at issued
    · rename_i checked
      obtain ⟨image, shown, same⟩ := bind_ok.mp issued
      obtain rfl := Option.some.inj (Except.ok.inj same)
      refine ⟨rfl, ?_, if_pos checked⟩
      cases on_screen : v.image with
      | none =>
        rw [on_screen] at shown
        cases shown
      | some img =>
        rw [on_screen] at shown
        rw [Except.ok.inj shown]
    · cases issued

/-- From an aligned screen that is ready, Save writes the right values. -/
theorem Aligned.save_right {input : UpdateUserInformation.Input} (aligned : v.Aligned stored storedImage)
    (issued : v.saveBarBtn = .ok (some input)) (ready : v.Ready storedImage) :
    v.Right stored storedImage input := by
  obtain ⟨model, image, _⟩ := saveBarBtn_issued issued
  obtain ⟨arrived, ended, shown⟩ := ready
  have emailId := aligned.model.emailId arrived _ model
  have fields : ∀ tag < 4, field input.updatedUserInfo tag = v.expected stored tag := by
    intro tag bound
    cases edited : v.editing tag with
    | false => exact aligned.model.fields arrived _ model tag bound edited
    | true =>
      obtain ⟨text, typed⟩ := Option.isSome_iff_exists.mp (aligned.model.typed tag edited)
      have same := ended tag bound edited
      rw [model] at same
      have written : field input.updatedUserInfo tag = v.typed tag := same.symm
      rw [written, expected, typed]
      rfl
  refine ⟨fields, emailId, ?_, ?_⟩
  · rw [← image]
    cases picked : v.picked with
    | some img => exact aligned.image.picked img picked
    | none =>
      cases on_screen : v.imageShown with
      | true => exact aligned.image.shown picked on_screen
      | false => exact shown picked on_screen
  · rw [profileFields_field, fields 0 (by decide), fields 1 (by decide), fields 2 (by decide),
      fields 3 (by decide), emailId]

/-- From an aligned screen, Save writes the right values only when it is ready. -/
theorem Aligned.save_ready {input : UpdateUserInformation.Input}
    (aligned : v.Aligned stored storedImage) (registered : stored.emailId.isSome)
    (issued : v.saveBarBtn = .ok (some input)) (right : v.Right stored storedImage input) :
    v.Ready storedImage := by
  obtain ⟨model, image, _⟩ := saveBarBtn_issued issued
  refine ⟨?_, ?_, ?_⟩
  · cases pending : v.userPending with
    | false => rfl
    | true =>
      have unset := aligned.model.early pending _ model
      rw [right.emailId] at unset
      rw [unset] at registered
      cases registered
  · intro tag bound edited
    obtain ⟨text, typed⟩ := Option.isSome_iff_exists.mp (aligned.model.typed tag edited)
    have written := right.fields tag bound
    rw [expected, typed] at written
    rw [model, typed]
    exact written.symm
  · intro unpicked _
    have uploaded := right.image
    rw [unpicked] at uploaded
    exact image.trans uploaded

/-- In a run of careful events, every tap on Save that finds the screen ready writes, for each field,
the last text typed or the stored value, the stored e-mail, and the last picture picked or the stored
one; and no other tap on Save that writes does. -/
theorem saves_right (stored : UserModel) (storedImage initial : Option UIImage) :
    ∀ v, (machine stored storedImage).Run (Careful stored) { image := initial } v →
      ∀ input, v.saveBarBtn = .ok (some input) →
        (v.Ready storedImage → v.Right stored storedImage input) ∧
        (stored.emailId.isSome → v.Right stored storedImage input → v.Ready storedImage) := by
  intro v run input issued
  have aligned := run_aligned run
  exact ⟨aligned.save_right issued, fun registered => aligned.save_ready registered issued⟩

/-- Ann's record. -/
def storedAnn : UserModel where
  userId := some "a"
  firstName := some "Ann"
  lastName := some "Lee"
  emailId := some "ann@mail"
  address := some "Elm Street 1"
  phoneNumber := some "555"

/-- Record and picture are on screen, Ann renames herself Eve and saves. -/
theorem saves_right_sample : ∃ (v : EditProfileViewController) (input : UpdateUserInformation.Input),
    v.saveBarBtn = .ok (some input) ∧ input.updatedUserInfo.firstName = some "Eve" ∧
      v.Right storedAnn (some ⟨[1]⟩) input := by
  let M := machine storedAnn (some ⟨[1]⟩)
  let ok := Careful storedAnn
  have arrived : M.Run ok { image := some ⟨[0]⟩ } _ :=
    .step (i := .fetchUser (some storedAnn)) .refl ⟨rfl, Or.inr rfl⟩ (fun _ _ _ => rfl) rfl
  have reloaded : M.Run ok { image := some ⟨[0]⟩ } _ :=
    .step (i := .main) arrived nofun nofun rfl
  have answered : M.Run ok { image := some ⟨[0]⟩ } _ :=
    .step (i := .fetchUserProfileImg (.image ⟨[1]⟩)) reloaded
      ⟨rfl, fun _ same => congrArg Download.image? same⟩ trivial rfl
  have pictured : M.Run ok { image := some ⟨[0]⟩ } _ :=
    .step (i := .main) answered nofun nofun rfl
  have typed : M.Run ok { image := some ⟨[0]⟩ } _ :=
    .step (i := .editingChanged 0 "Eve") pictured (by decide : 0 < 4) trivial rfl
  have ended : M.Run ok { image := some ⟨[0]⟩ } _ :=
    .step (i := .textFieldDidEndEditing 0) typed (by decide : 0 < 4) (fun _ _ => rfl) rfl
  have none_edited : ∀ tag < 4, Function.update (Function.update (fun _ => false) 0 true) 0 false tag = true →
      False := by decide
  refine ⟨_, _, rfl, rfl, (saves_right storedAnn (some ⟨[1]⟩) (some ⟨[0]⟩) _ ended _ rfl).1 ?_⟩
  exact ⟨rfl, fun tag bound edited => (none_edited tag bound edited).elim, nofun⟩

/-- The same, but Save is tapped while the field is still being edited. -/
theorem save_loses_edit : ¬ ∀ v,
    (machine storedAnn (some ⟨[1]⟩)).Run Machine.AnyEvent { image := some ⟨[0]⟩ } v →
      ∀ input, v.saveBarBtn = .ok (some input) → v.Right storedAnn (some ⟨[1]⟩) input := by
  intro right
  let M := machine storedAnn (some ⟨[1]⟩)
  have arrived : M.Run Machine.AnyEvent { image := some ⟨[0]⟩ } _ :=
    .step (i := .fetchUser (some storedAnn)) .refl ⟨rfl, Or.inr rfl⟩ trivial rfl
  have reloaded : M.Run Machine.AnyEvent { image := some ⟨[0]⟩ } _ :=
    .step (i := .main) arrived nofun trivial rfl
  have answered : M.Run Machine.AnyEvent { image := some ⟨[0]⟩ } _ :=
    .step (i := .fetchUserProfileImg (.image ⟨[1]⟩)) reloaded
      ⟨rfl, fun _ same => congrArg Download.image? same⟩ trivial rfl
  have pictured : M.Run Machine.AnyEvent { image := some ⟨[0]⟩ } _ :=
    .step (i := .main) answered nofun trivial rfl
  have typed : M.Run Machine.AnyEvent { image := some ⟨[0]⟩ } _ :=
    .step (i := .editingChanged 0 "Eve") pictured (by decide : 0 < 4) trivial rfl
  have written := (right _ typed _ rfl).fields 0 (by decide)
  exact absurd written (by decide)

end EditProfileViewController

end SimpleSNS
