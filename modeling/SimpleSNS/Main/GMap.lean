import SimpleSNS.Main.SignUp

/-!
`GMapViewController`. The positions of all users are parsed in one loop; each marker is made by a
block of its own, which unwraps the user's picture.
-/

namespace SimpleSNS
open Async

structure GMSMarker (C : CoreLocation) where
  position : CLLocation C
  title : Option String
  image : UIImage

/-- `queue` holds the blocks by the user and the location that each captures. -/
structure GMapViewController (C : CoreLocation) where
  queue : List (UserModel × CLLocation C) := []
  markers : List (GMSMarker C) := []

namespace GMapViewController

variable {C : CoreLocation}

def showUsersLocation (v : GMapViewController C) : List UserModel → Except Trap (GMapViewController C)
  | [] => .ok v
  | user :: rest => do
    let latitude ← unwrap user.latitude
    let coordinateLatitude ← unwrap (C.double latitude)
    let longitude ← unwrap user.longitude
    let coordinateLongitude ← unwrap (C.double longitude)
    let location := ⟨coordinateLatitude, coordinateLongitude⟩
    { v with queue := v.queue ++ [(user, location)] }.showUsersLocation rest

/-- The main queue runs the blocks. -/
def addMarkers (markers : List (GMSMarker C)) :
    List (UserModel × CLLocation C) → Except Trap (List (GMSMarker C))
  | [] => .ok markers
  | (user, location) :: rest => do
    let image ← unwrap user.image
    addMarkers (markers ++ [⟨location, user.firstName, image⟩]) rest

/-- The map as it opens over these users, until its main queue has drained. -/
def viewDidLoad (C : CoreLocation) (userInfoArray : List UserModel) :
    Except Trap (List (GMSMarker C)) := do
  let v ← showUsersLocation ({} : GMapViewController C) userInfoArray
  addMarkers v.markers v.queue

/-! ### What the map should show -/

def location (C : CoreLocation) (user : UserModel) : Option (CLLocation C) := do
  let latitude ← user.latitude.bind C.double
  let longitude ← user.longitude.bind C.double
  return ⟨latitude, longitude⟩

/-- The one marker of a user. -/
def marker (C : CoreLocation) (user : UserModel) : Option (GMSMarker C) := do
  let location ← location C user
  let image ← user.image
  return ⟨location, user.firstName, image⟩

theorem showUsersLocation_cons (v : GMapViewController C) {user : UserModel} {here : CLLocation C}
    (found : location C user = some here) (rest : List UserModel) : v.showUsersLocation (user :: rest) =
      { v with queue := v.queue ++ [(user, here)] }.showUsersLocation rest := by
  obtain ⟨latitude, north, step⟩ := Option.bind_eq_some_iff.mp found
  obtain ⟨longitude, east, same⟩ := Option.bind_eq_some_iff.mp step
  obtain ⟨latitudeText, latitude_set, north⟩ := Option.bind_eq_some_iff.mp north
  obtain ⟨longitudeText, longitude_set, east⟩ := Option.bind_eq_some_iff.mp east
  obtain rfl := Option.some.inj same
  simp only [showUsersLocation, latitude_set, longitude_set, unwrap_some, bind, Except.bind, north, east]

/-- The loop runs when every user has coordinates that parse, and captures each user once. -/
theorem showUsersLocation_ok (v : GMapViewController C) {users : List UserModel}
    (placed : ∀ user ∈ users, (location C user).isSome) : ∃ v' places,
      v.showUsersLocation users = .ok v' ∧ v'.markers = v.markers ∧ v'.queue = v.queue ++ places ∧
      places.map Prod.fst = users ∧ ∀ place ∈ places, location C place.1 = some place.2 := by
  induction users generalizing v with
  | nil =>
    exact ⟨v, [], rfl, rfl, (List.append_nil _).symm, rfl, fun _ member => absurd member List.not_mem_nil⟩
  | cons user rest ih =>
    obtain ⟨here, found⟩ := Option.isSome_iff_exists.mp (placed user List.mem_cons_self)
    obtain ⟨v', places, ran, markers, queue, captured, locations⟩ :=
      ih { v with queue := v.queue ++ [(user, here)] }
        fun user' member => placed user' (List.mem_cons_of_mem _ member)
    refine ⟨v', (user, here) :: places, ?_, markers, ?_, ?_, ?_⟩
    · rw [showUsersLocation_cons v found]
      exact ran
    · rw [queue, List.append_assoc]
      rfl
    · rw [List.map_cons, captured]
    · intro place member
      rcases List.mem_cons.mp member with rfl | later
      · exact found
      · exact locations place later

theorem addMarkers_cons (markers : List (GMSMarker C)) {user : UserModel} {image : UIImage}
    (pictured : user.image = some image) (here : CLLocation C) (rest : List (UserModel × CLLocation C)) :
    addMarkers markers ((user, here) :: rest) =
      addMarkers (markers ++ [⟨here, user.firstName, image⟩]) rest := by
  rw [addMarkers, pictured]
  rfl

/-- With a picture for every user, each block adds the marker of its user. -/
theorem addMarkers_ok (markers : List (GMSMarker C)) {places : List (UserModel × CLLocation C)}
    (placed : ∀ place ∈ places, location C place.1 = some place.2)
    (pictured : ∀ place ∈ places, place.1.image.isSome) : ∃ shown,
      addMarkers markers places = .ok (markers ++ shown) ∧
      shown.map some = (places.map Prod.fst).map (marker C) := by
  induction places generalizing markers with
  | nil =>
    refine ⟨[], ?_, rfl⟩
    rw [List.append_nil]
    rfl
  | cons place rest ih =>
    obtain ⟨user, here⟩ := place
    obtain ⟨image, found⟩ := Option.isSome_iff_exists.mp (pictured _ List.mem_cons_self)
    have own : marker C user = some ⟨here, user.firstName, image⟩ := by
      unfold marker
      rw [placed _ List.mem_cons_self, found]
      rfl
    obtain ⟨shown, ran, same⟩ := ih (markers ++ [⟨here, user.firstName, image⟩])
      (fun place member => placed place (List.mem_cons_of_mem _ member))
      (fun place member => pictured place (List.mem_cons_of_mem _ member))
    refine ⟨⟨here, user.firstName, image⟩ :: shown, ?_, ?_⟩
    · rw [addMarkers_cons markers found here, ran, List.append_assoc]
      rfl
    · rw [List.map_cons, List.map_cons, List.map_cons, own, same]

/-- The block of a user without a picture stops. -/
theorem addMarkers_traps (markers : List (GMSMarker C)) {places : List (UserModel × CLLocation C)}
    {place : UserModel × CLLocation C} (member : place ∈ places) (missing : place.1.image = none) :
    addMarkers markers places = .error .nilUnwrap := by
  induction places generalizing markers with
  | nil => cases member
  | cons first rest ih =>
    obtain ⟨user, here⟩ := first
    cases found : user.image with
    | none =>
      rw [addMarkers, found]
      rfl
    | some image =>
      rw [addMarkers_cons markers found here]
      rcases List.mem_cons.mp member with rfl | later
      · rw [missing] at found
        cases found
      · exact ih _ later

/-- The map opens and shows one marker per user. -/
def Shows (C : CoreLocation) (users : List UserModel) : Prop :=
  ∃ markers, viewDidLoad C users = .ok markers ∧ markers.map some = users.map (marker C)

/-- Over users with coordinates that parse, the map shows one marker per user exactly when all of
them have a picture. -/
theorem shows_iff {users : List UserModel} (placed : ∀ user ∈ users, (location C user).isSome) :
    Shows C users ↔ ∀ user ∈ users, user.image.isSome := by
  obtain ⟨v, places, ran, markers, queue, captured, locations⟩ := showUsersLocation_ok {} placed
  have opens : viewDidLoad C users = addMarkers [] places := by
    unfold viewDidLoad
    rw [ran]
    show addMarkers v.markers v.queue = _
    rw [markers, queue]
    rfl
  constructor
  · rintro ⟨shown, opened, _⟩ user member
    by_contra missing
    rw [← captured] at member
    obtain ⟨place, captures, rfl⟩ := List.mem_map.mp member
    have stopped := addMarkers_traps (C := C) [] captures (Option.not_isSome_iff_eq_none.mp missing)
    rw [opens, stopped] at opened
    cases opened
  · intro pictured
    have all : ∀ place ∈ places, place.1.image.isSome := by
      intro place captures
      exact pictured _ (captured ▸ List.mem_map_of_mem captures)
    obtain ⟨shown, added, same⟩ := addMarkers_ok [] locations all
    refine ⟨shown, opens.trans added, ?_⟩
    rw [same, captured]

end GMapViewController

end SimpleSNS
