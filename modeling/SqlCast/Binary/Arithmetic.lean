import SqlCast.Binary.Basic

namespace SqlCast.Binary

variable {f : Format}

def neg : Binary f → Binary f
  | nan => nan
  | infinity s => infinity !s
  | finite s m => finite (!s) m

def add : Binary f → Binary f → Binary f
  | nan, _ => nan
  | _, nan => nan
  | infinity s, infinity t => if s = t then infinity s else nan
  | infinity s, finite _ _ => infinity s
  | finite _ _, infinity t => infinity t
  | finite s m, finite t n =>
      if s = t then ofRatio f s (m.quanta + n.quanta) 1
      else if m.quanta = n.quanta then zero
      else if n.quanta < m.quanta then ofRatio f s (m.quanta - n.quanta) 1
      else ofRatio f t (n.quanta - m.quanta) 1

def mul : Binary f → Binary f → Binary f
  | nan, _ => nan
  | _, nan => nan
  | infinity s, infinity t => infinity (s ^^ t)
  | infinity s, finite t n => if n.quanta = 0 then nan else infinity (s ^^ t)
  | finite s m, infinity t => if m.quanta = 0 then nan else infinity (s ^^ t)
  | finite s m, finite t n => ofRatio f (s ^^ t) (m.quanta * n.quanta) f.one

def div : Binary f → Binary f → Binary f
  | nan, _ => nan
  | _, nan => nan
  | infinity _, infinity _ => nan
  | infinity s, finite t _ => infinity (s ^^ t)
  | finite s _, infinity t => ofRatio f (s ^^ t) 0 1
  | finite s m, finite t n =>
      if n.quanta = 0 then if m.quanta = 0 then nan else infinity (s ^^ t)
      else ofRatio f (s ^^ t) (m.quanta * f.one) n.quanta

instance : Neg (Binary f) := ⟨neg⟩
instance : Add (Binary f) := ⟨add⟩
instance : Mul (Binary f) := ⟨mul⟩
instance : Div (Binary f) := ⟨div⟩

end SqlCast.Binary
