import MediaCatalog.Edit.Transformation
import MediaCatalog.Image.Imaging
import MediaCatalog.Render.Merger

namespace MediaCatalog

structure Darkroom (σ ρ : Type) where
  develop : Act σ ρ
  apply : Transformation → ρ → Act σ ρ
  close : ρ → Act σ Unit

namespace Darkroom

variable {σ ρ : Type}

/-- The raster is closed whether or not the operation succeeds. An operation without a name fails
before it takes the raster. -/
def step (d : Darkroom σ ρ) (raster : ρ) (o : Operation) : Act σ ρ := do
  let _ ← Act.ofExcept o.name
  let changed := do d.apply (← Act.ofExcept o.transformation) raster
  Act.ensuring changed (d.close raster)

def run (d : Darkroom σ ρ) (raster : ρ) (operations : List Operation) : Act σ ρ :=
  operations.foldlM d.step raster

def render (d : Darkroom σ ρ) (operations : List Operation) : Act σ ρ := do
  d.run (← d.develop) operations

end Darkroom

structure PictureEdit where
  source : Path
  operations : List Operation

namespace PictureEdit

def darkroom (source : Path) : Darkroom World Raster where
  develop := do Act.ofExcept (← Picture.openPath source).uprightRaster
  apply t r := Act.ofExcept (t.apply r)
  close _ := return ()

def edit (e : PictureEdit) : Edit World Raster where
  render := (darkroom e.source).render e.operations

end PictureEdit

def Raster.kit (m : Imaging) : RasterKit World Raster where
  size := Raster.size
  encode r quality := Act.ofExcept (m.encode r quality)
  close _ := return ()

end MediaCatalog
