import ArkRoutes.Data.Value

namespace ArkRoutes.Data

structure Field (σ : Type) where
  key : String
  set : Value → Option (σ → σ)

namespace Record

variable {σ : Type}

def field {α : Type} (key : String) (read : Value → Option α) (store : α → σ → σ) : Field σ :=
  ⟨key, fun v => (read v).map store⟩

def byPosition : List (Field σ) → List Value → σ → Option σ
  | _, [], record => some record
  | [], _ :: _, _ => none
  | f :: fields, v :: items, record => do byPosition fields items ((← f.set v) record)

/-- `seen` holds the keys read so far. Keys that name no field are passed over. -/
def byKey (fields : List (Field σ)) (seen : List String) :
    List (String × Value) → σ → Option σ
  | [], record => some record
  | (k, v) :: rest, record =>
    match fields.find? (·.key == k) with
    | some f => do
      if seen.contains k then none
      else byKey fields (k :: seen) rest ((← f.set v) record)
    | none => if v.isSound then byKey fields seen rest record else none

/-- Fields come by key, in any order and at most once, or by position; what is left out keeps what it was. -/
def read? (fields : List (Field σ)) (initial : σ) : Value → Option σ
  | .array items => byPosition fields items initial
  | .object pairs => byKey fields [] pairs initial
  | _ => none

end Record

end ArkRoutes.Data
