import CorrelationPlot.Sketch.Svg

/-!
Sketches as grids of pixels, and those as PNG files. The pixels show the shapes only. The file
stores its data without compression.
-/
namespace CorrelationPlot

def Shape.covers : Shape → Int → Int → Bool
  | .rect x y width height _ _, px, py => x ≤ px && px < x + width && y ≤ py && py < y + height
  | .circle x y radius _ _, px, py =>
    (px - x) * (px - x) + (py - y) * (py - y) ≤ radius * radius

def Shape.fill : Shape → Rgb
  | .rect _ _ _ _ _ fill => fill
  | .circle _ _ _ _ fill => fill

namespace Sketch

def blend (below above : Rgb) (opacity : Float) : Rgb :=
  let mix (a b : UInt8) : UInt8 :=
    Density.between (Float.ofNat a.toNat) (Float.ofNat b.toNat) opacity
  ⟨mix below.red above.red, mix below.green above.green, mix below.blue above.blue⟩

def colorAt (s : Sketch) (x y : Nat) : Rgb :=
  (s.panels.flatMap (·.shapes)).foldl
    (fun c shape => if shape.covers x y then blend c shape.fill shape.opacity else c)
    s.background

/-- The rows of pixels, each behind the byte that names its filter. -/
def scanLines (s : Sketch) : ByteArray :=
  (List.range s.height).foldl (fun bytes y =>
    (List.range s.width).foldl (fun bytes x =>
      let c := s.colorAt x y
      ((bytes.push c.red).push c.green).push c.blue) (bytes.push 0)) ByteArray.empty

namespace Png

def bigEndian (n : UInt32) : ByteArray :=
  ⟨#[(n >>> 24).toUInt8, (n >>> 16).toUInt8, (n >>> 8).toUInt8, n.toUInt8]⟩

def littleEndian16 (n : Nat) : ByteArray := ⟨#[UInt8.ofNat n, UInt8.ofNat (n / 256)]⟩

/-- One bit of the cyclic redundancy check. -/
def crcBit (c : UInt32) : UInt32 := if c &&& 1 = 1 then (c >>> 1) ^^^ 0xEDB88320 else c >>> 1

def crcByte (c : UInt32) (b : UInt8) : UInt32 := Nat.repeat crcBit 8 (c ^^^ b.toUInt32)

def crc (bytes : ByteArray) : UInt32 := ~~~(bytes.foldl crcByte 0xFFFFFFFF)

/-- The sums of the Adler check. -/
def adler (bytes : ByteArray) : UInt32 :=
  let (a, b) := bytes.foldl
    (fun (a, b) byte => let a := (a + byte.toUInt32) % 65521; (a, (b + a) % 65521))
    ((1, 0) : UInt32 × UInt32)
  b <<< 16 ||| a

def chunk (name : String) (data : ByteArray) : ByteArray :=
  let body := name.toUTF8 ++ data
  bigEndian (UInt32.ofNat data.size) ++ body ++ bigEndian (crc body)

def blockSize : Nat := 65535

/-- Stored blocks of the data, of which the last one is marked. -/
def blocks (data : ByteArray) : ByteArray :=
  let count := max 1 ((data.size + blockSize - 1) / blockSize)
  (List.range count).foldl (fun out i =>
    let block := data.extract (i * blockSize) ((i + 1) * blockSize)
    let last : UInt8 := if i + 1 = count then 1 else 0
    (out.push last) ++ littleEndian16 block.size ++ littleEndian16 (blockSize - block.size) ++ block)
    ByteArray.empty

def deflated (data : ByteArray) : ByteArray :=
  ⟨#[0x78, 0x01]⟩ ++ blocks data ++ bigEndian (adler data)

def mark : ByteArray := ⟨#[0x89, 0x50, 0x4E, 0x47, 0x0D, 0x0A, 0x1A, 0x0A]⟩

end Png

def png (s : Sketch) : ByteArray :=
  Png.mark ++
    Png.chunk "IHDR" (Png.bigEndian (UInt32.ofNat s.width) ++ Png.bigEndian (UInt32.ofNat s.height) ++
      ⟨#[8, 2, 0, 0, 0]⟩) ++
    Png.chunk "IDAT" (Png.deflated s.scanLines) ++
    Png.chunk "IEND" ByteArray.empty

end Sketch
end CorrelationPlot
