import TypeReflection.Image.Basic

/-! # Workshops

A workshop has any number of builders at work, each on an image with a number of its own. Image
numbers are taken from one 32-bit counter.
-/

namespace TypeReflection

/-- Builders at work and finished images. -/
structure Workshop where
  /-- Number of the next image. -/
  nextImage : UInt32
  /-- The builders in the order in which they started, nothing where the image is finished. -/
  builders : List (Option Builder)
  /-- The images in the order in which they were finished. -/
  images : List Image

/-- Why a step of a workshop cannot be taken. -/
inductive WorkshopError where
  /-- No such builder is at work. -/
  | noBuilder (index : Nat)
  /-- The declaration cannot be emitted. -/
  | build (error : BuildError)
  /-- A pointer lies outside the emitted bytes. -/
  | relocationOutside
  deriving Repr, DecidableEq

namespace Workshop

/-- No builder and no image, the first image to have number zero. -/
def empty : Workshop :=
  ⟨0, [], []⟩

/-- The workshop with one more builder. -/
def start (workshop : Workshop) : Workshop where
  nextImage := workshop.nextImage + 1
  builders := workshop.builders ++ [some (.empty workshop.nextImage)]
  images := workshop.images

/-- The builder numbered `index`, if it is at work. -/
def builder? (workshop : Workshop) (index : Nat) : Option Builder :=
  workshop.builders[index]?.join

/-- The workshop after a declaration to the builder numbered `index`, and the symbols issued. -/
def declare (workshop : Workshop) (index : Nat) (declaration : Declaration) :
    Except WorkshopError (Workshop × Issued) :=
  match workshop.builder? index with
  | none => .error (.noBuilder index)
  | some builder =>
    match builder.declare declaration with
    | .error error => .error (.build error)
    | .ok (builder, issued) =>
        .ok ({ workshop with builders := workshop.builders.set index (some builder) }, issued)

/-- The workshop after the builder numbered `index` finished its image at `base`, and the image. -/
def finish (workshop : Workshop) (index : Nat) (base : Address) :
    Except WorkshopError (Workshop × Image) :=
  match workshop.builder? index with
  | none => .error (.noBuilder index)
  | some builder =>
    match builder.finish? base with
    | none => .error .relocationOutside
    | some image =>
        let builders := workshop.builders.set index none
        .ok ({ workshop with builders, images := workshop.images ++ [image] }, image)

end Workshop

end TypeReflection
